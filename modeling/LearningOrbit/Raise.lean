import Mathlib.Data.List.Basic

/-!
# Calls that may raise

A call returns a value or raises. In a transaction a raise rolls back, so what a
run of transactions keeps is what every call that returns keeps.
-/

namespace LearningOrbit

variable {α β ε : Type}

instance decidableEqExcept [DecidableEq ε] [DecidableEq α] : DecidableEq (Except ε α)
  | .ok a, .ok b => decidable_of_iff (a = b) ⟨congrArg _, Except.ok.inj⟩
  | .error e, .error e' => decidable_of_iff (e = e') ⟨congrArg _, Except.error.inj⟩
  | .ok _, .error _ => isFalse fun h => by cases h
  | .error _, .ok _ => isFalse fun h => by cases h

theorem bind_eq_ok {x : Except ε α} {f : α → Except ε β} {b : β} :
    (x >>= f) = .ok b ↔ ∃ a, x = .ok a ∧ f a = .ok b := by
  cases x <;> simp [bind, Except.bind]

theorem toOption_eq_some {x : Except ε α} {a : α} (hx : x.toOption = some a) : x = .ok a := by
  cases x with
  | error e => cases hx
  | ok b =>
    cases hx
    rfl

theorem bind_ne_error {x : Except ε α} {f : α → Except ε β} {e : ε} (hx : x ≠ .error e)
    (hf : ∀ a, f a ≠ .error e) : (x >>= f) ≠ .error e := by
  cases x with
  | error e' => simpa [bind, Except.bind] using hx
  | ok a => exact hf a

theorem map_eq_ok {x : Except ε α} {f : α → β} {b : β} :
    x.map f = .ok b ↔ ∃ a, x = .ok a ∧ f a = b := by
  cases x <;> simp [Except.map]

theorem map_eq_error {x : Except ε α} {f : α → β} {e : ε} :
    x.map f = .error e ↔ x = .error e := by
  cases x <;> simp [Except.map]

theorem forM_eq_ok {l : List α} {f : α → Except ε Unit} :
    l.forM f = .ok () ↔ ∀ a ∈ l, f a = .ok () := by
  induction l with
  | nil => simp [pure, Except.pure]
  | cons a l ih =>
    change (f a >>= fun _ => l.forM f) = .ok () ↔ _
    rw [bind_eq_ok]
    simp only [List.mem_cons, forall_eq_or_imp, ← ih]
    exact ⟨fun ⟨_, ha, hl⟩ => ⟨ha, hl⟩, fun ⟨ha, hl⟩ => ⟨(), ha, hl⟩⟩

theorem mapM_eq_ok {l : List α} {f : α → Except ε β} {g : α → β}
    (h : ∀ a ∈ l, f a = .ok (g a)) : l.mapM f = .ok (l.map g) := by
  induction l with
  | nil => rfl
  | cons a l ih =>
    have ha := h a (List.mem_cons_self ..)
    have hl := ih fun b hb => h b (List.mem_cons_of_mem _ hb)
    simp [List.mapM_cons, ha, hl, bind, Except.bind, pure, Except.pure]

theorem mapM_ok {l : List α} {f : α → Except ε β} (h : ∀ a ∈ l, ∃ b, f a = .ok b) :
    ∃ bs, l.mapM f = .ok bs := by
  induction l with
  | nil => exact ⟨[], rfl⟩
  | cons a l ih =>
    obtain ⟨b, hb⟩ := h a (List.mem_cons_self ..)
    obtain ⟨bs, hbs⟩ := ih fun a ha => h a (List.mem_cons_of_mem _ ha)
    exact ⟨b :: bs, by simp [List.mapM_cons, hb, hbs, bind, Except.bind, pure, Except.pure]⟩

theorem mem_of_mapM_ok {l : List α} {f : α → Except ε β} {bs : List β}
    (h : l.mapM f = .ok bs) : ∀ b ∈ bs, ∃ a ∈ l, f a = .ok b := by
  induction l generalizing bs with
  | nil => cases h; simp
  | cons a l ih =>
    rw [List.mapM_cons] at h
    obtain ⟨b, hb, h⟩ := bind_eq_ok.mp h
    obtain ⟨cs, hcs, h⟩ := bind_eq_ok.mp h
    cases h
    intro c hc
    rcases List.mem_cons.mp hc with rfl | hc
    · exact ⟨a, List.mem_cons_self .., hb⟩
    · obtain ⟨d, hd, hdc⟩ := ih hcs c hc
      exact ⟨d, List.mem_cons_of_mem _ hd, hdc⟩

theorem ok_of_mapM_ok {l : List α} {f : α → Except ε β} {bs : List β}
    (h : l.mapM f = .ok bs) : ∀ a ∈ l, ∃ b, f a = .ok b := by
  induction l generalizing bs with
  | nil => simp
  | cons a l ih =>
    rw [List.mapM_cons] at h
    obtain ⟨b, hb, h⟩ := bind_eq_ok.mp h
    obtain ⟨cs, hcs, -⟩ := bind_eq_ok.mp h
    intro c hc
    rcases List.mem_cons.mp hc with rfl | hc
    · exact ⟨b, hb⟩
    · exact ih hcs c hc

/-- What is kept of the results is what is kept of the arguments. -/
theorem map_filter_of_mapM_ok {γ : Type} {l : List α} {f : α → Except ε β} {bs : List β}
    {p : β → Bool} {q : α → Bool} {g : β → γ} {k : α → γ} (h : l.mapM f = .ok bs)
    (hpq : ∀ a b, f a = .ok b → p b = q a)
    (hgk : ∀ a b, f a = .ok b → q a = true → g b = k a) :
    (bs.filter p).map g = (l.filter q).map k := by
  induction l generalizing bs with
  | nil =>
    cases h
    rfl
  | cons a l ih =>
    rw [List.mapM_cons] at h
    obtain ⟨b, hb, h⟩ := bind_eq_ok.mp h
    obtain ⟨cs, hcs, h⟩ := bind_eq_ok.mp h
    cases h
    rw [List.filter_cons, List.filter_cons, hpq a b hb]
    by_cases hq : q a = true
    · rw [if_pos hq, if_pos hq, List.map_cons, List.map_cons, hgk a b hb hq, ih hcs]
    · rw [if_neg hq, if_neg hq, ih hcs]

section Transactions

variable {σ ι : Type} {f : σ → ι → Except ε σ}

/-- One call in a transaction of its own. -/
def commit (f : σ → ι → Except ε σ) (s : σ) (i : ι) : σ :=
  match f s i with
  | .ok s' => s'
  | .error _ => s

/-- A sequence of transactions. -/
def commitAll (f : σ → ι → Except ε σ) (s : σ) (calls : List ι) : σ := calls.foldl (commit f) s

theorem commit_of_ok {s s' : σ} {i : ι} (h : f s i = .ok s') : commit f s i = s' := by
  unfold commit
  rw [h]

theorem commit_of_error {s : σ} {i : ι} {e : ε} (h : f s i = .error e) : commit f s i = s := by
  unfold commit
  rw [h]

theorem commitAll_append (s : σ) (calls calls' : List ι) :
    commitAll f s (calls ++ calls') = commitAll f (commitAll f s calls) calls' :=
  List.foldl_append ..

/-- A reflexive and transitive relation that every returning call keeps holds over a run. -/
theorem commitAll_rel {R : σ → σ → Prop} (hrefl : ∀ s, R s s)
    (htrans : ∀ s t u, R s t → R t u → R s u) (hstep : ∀ s i s', f s i = .ok s' → R s s')
    (s : σ) (calls : List ι) : R s (commitAll f s calls) := by
  induction calls generalizing s with
  | nil => exact hrefl s
  | cons i calls ih =>
    refine htrans _ _ _ ?_ (ih (commit f s i))
    cases h : f s i with
    | error e => rw [commit_of_error h]; exact hrefl s
    | ok s' => rw [commit_of_ok h]; exact hstep s i s' h

/-- An invariant that every returning call keeps holds after a run. -/
theorem commitAll_invariant {P : σ → Prop} (hstep : ∀ s i s', P s → f s i = .ok s' → P s')
    {s : σ} (hs : P s) (calls : List ι) : P (commitAll f s calls) :=
  commitAll_rel (fun _ h => h) (fun _ _ _ h h' hs => h' (h hs))
    (fun s i s' h hs => hstep s i s' hs h) s calls hs

/-- The same when only the calls of this run are known to keep it. -/
theorem commitAll_invariant_of_mem {P : σ → Prop} {calls : List ι}
    (hstep : ∀ s i s', i ∈ calls → P s → f s i = .ok s' → P s') {s : σ} (hs : P s) :
    P (commitAll f s calls) := by
  induction calls generalizing s with
  | nil => exact hs
  | cons i calls ih =>
    refine ih (fun s j s' hj => hstep s j s' (List.mem_cons_of_mem _ hj)) ?_
    cases h : f s i with
    | error e => rw [commit_of_error h]; exact hs
    | ok s' => rw [commit_of_ok h]; exact hstep s i s' (List.mem_cons_self ..) hs h

end Transactions

end LearningOrbit
