import Mathlib.Data.List.Basic

/-!
# Programs beside each other

A program calls the world it shares with others and waits for the answer. Between any two calls
the others may call, programs may start and stop, and the world may be disturbed. What a program
knows has to survive all of it.
-/

namespace LearningOrbit.Threads

variable {W Op α β : Type} {Ans : Op → Type}

inductive Program (Op : Type) (Ans : Op → Type) (α : Type)
  | done (a : α)
  | call (op : Op) (next : Ans op → Program Op Ans α)

def Program.bind : Program Op Ans α → (α → Program Op Ans β) → Program Op Ans β
  | .done a, f => f a
  | .call op next, f => .call op fun ans => (next ans).bind f

/-- These answers bring the program here. -/
inductive Leads {Op : Type} {Ans : Op → Type} {α : Type} :
    Program Op Ans α → List (Σ op, Ans op) → Program Op Ans α → Prop
  | here (p : Program Op Ans α) : Leads p [] p
  | call (op : Op) {next : Ans op → Program Op Ans α} {q : Program Op Ans α} (ans : Ans op)
      {trace : List (Σ op, Ans op)} : Leads (next ans) trace q →
      Leads (.call op next) (⟨op, ans⟩ :: trace) q

theorem Leads.trans {p q r : Program Op Ans α} {trace trace' : List (Σ op, Ans op)}
    (h : Leads p trace q) (h' : Leads q trace' r) : Leads p (trace ++ trace') r := by
  induction h with
  | here => exact h'
  | call op ans _ ih => exact .call op ans (ih h')

theorem Leads.bind {p q : Program Op Ans α} {trace : List (Σ op, Ans op)} (h : Leads p trace q)
    (f : α → Program Op Ans β) : Leads (p.bind f) trace (q.bind f) := by
  induction h with
  | here => exact .here _
  | call op ans _ ih => exact .call op ans ih

/-- What comes after a program goes on with what it returns. -/
theorem Leads.andThen {p : Program Op Ans α} {trace trace' : List (Σ op, Ans op)} {a : α}
    {f : α → Program Op Ans β} {q : Program Op Ans β} (h : Leads p trace (.done a))
    (h' : Leads (f a) trace' q) : Leads (p.bind f) (trace ++ trace') q :=
  (h.bind f).trans h'

/-- How the world answers and is disturbed. Facts about it stay true in every later world. -/
structure System (W Op : Type) (Ans : Op → Type) where
  answers : W → (op : Op) → Ans op → W → Prop
  disturbs : W → W → Prop
  later : W → W → Prop
  later_refl : ∀ w, later w w
  later_trans : ∀ {u v w}, later u v → later v w → later u w
  answers_later : ∀ {w op ans w'}, answers w op ans w' → later w w'
  disturbs_later : ∀ {w w'}, disturbs w w' → later w w'

variable (s : System W Op Ans) (I : W → Prop)

/-- From this world on every call of the program keeps the invariant, and what it returns is
right, whatever happens between its calls. -/
def Keeps (post : α → W → Prop) : Program Op Ans α → W → Prop
  | .done a, w => post a w
  | .call op next, w => ∀ w₁ ans w₂, s.later w w₁ → I w₁ → s.answers w₁ op ans w₂ →
      I w₂ ∧ Keeps post (next ans) w₂

variable {s I} {post post' : α → W → Prop} {p : Program Op Ans α} {w w' : W}

theorem Keeps.weaken (h : Keeps s I post p w) (hpost : ∀ a w, post a w → post' a w) :
    Keeps s I post' p w := by
  induction p generalizing w with
  | done a => exact hpost a w h
  | call op next ih =>
    intro w₁ ans w₂ hlater hi hans
    obtain ⟨hi₂, hnext⟩ := h w₁ ans w₂ hlater hi hans
    exact ⟨hi₂, ih ans hnext⟩

theorem Keeps.bind {f : α → Program Op Ans β} {post' : β → W → Prop}
    (h : Keeps s I (fun a w => Keeps s I post' (f a) w) p w) : Keeps s I post' (p.bind f) w := by
  induction p generalizing w with
  | done a => exact h
  | call op next ih =>
    intro w₁ ans w₂ hlater hi hans
    obtain ⟨hi₂, hnext⟩ := h w₁ ans w₂ hlater hi hans
    exact ⟨hi₂, ih ans hnext⟩

theorem Keeps.later (h : Keeps s I post p w) (hlater : s.later w w')
    (hpost : ∀ a w w', s.later w w' → post a w → post a w') : Keeps s I post p w' := by
  cases p with
  | done a => exact hpost a w w' hlater h
  | call op next =>
    intro w₁ ans w₂ hlater₁ hi hans
    exact h w₁ ans w₂ (s.later_trans hlater hlater₁) hi hans

theorem Keeps.ends_after {u : W} (hu : s.later u w) (h : Keeps s I post p w) :
    Keeps s I (fun a w' => s.later u w' ∧ post a w') p w := by
  induction p generalizing w with
  | done a => exact ⟨hu, h⟩
  | call op next ih =>
    intro w₁ ans w₂ hlater hi hans
    obtain ⟨hi₂, hnext⟩ := h w₁ ans w₂ hlater hi hans
    exact ⟨hi₂, ih ans (s.later_trans (s.later_trans hu hlater) (s.answers_later hans)) hnext⟩

/-- A program ends in a later world than it started in. -/
theorem Keeps.ends (h : Keeps s I post p w) :
    Keeps s I (fun a w' => s.later w w' ∧ post a w') p w :=
  h.ends_after (s.later_refl w)

/-- The world, and the programs that are under way in it. -/
structure Pool (W Op : Type) (Ans : Op → Type) (α : Type) where
  world : W
  running : List (Program Op Ans α)

/-- A program may stop after any of its calls. -/
inductive Step (s : System W Op Ans) (starts : Program Op Ans α → Prop) :
    Pool W Op Ans α → Pool W Op Ans α → Prop
  | start {w : W} {running : List (Program Op Ans α)} (p : Program Op Ans α) :
      starts p → Step s starts ⟨w, running⟩ ⟨w, p :: running⟩
  | call {w w' : W} (before after : List (Program Op Ans α)) {op : Op}
      {next : Ans op → Program Op Ans α} (ans : Ans op) : s.answers w op ans w' →
      Step s starts ⟨w, before ++ .call op next :: after⟩ ⟨w', before ++ next ans :: after⟩
  | stop {w : W} {before after : List (Program Op Ans α)} (p : Program Op Ans α) :
      Step s starts ⟨w, before ++ p :: after⟩ ⟨w, before ++ after⟩
  | disturb {w w' : W} {running : List (Program Op Ans α)} :
      s.disturbs w w' → Step s starts ⟨w, running⟩ ⟨w', running⟩

inductive Runs (s : System W Op Ans) (starts : Program Op Ans α → Prop) (w : W) :
    Pool W Op Ans α → Prop
  | start : Runs s starts w ⟨w, []⟩
  | step {x y : Pool W Op Ans α} : Runs s starts w x → Step s starts x y → Runs s starts w y

variable {starts : Program Op Ans α → Prop} {x y : Pool W Op Ans α}

/-- The world gives these answers, one after the other. -/
inductive Gives (s : System W Op Ans) : W → List (Σ op, Ans op) → W → Prop
  | here (w : W) : Gives s w [] w
  | call {u v w : W} {op : Op} {ans : Ans op} {trace : List (Σ op, Ans op)} :
      s.answers u op ans v → Gives s v trace w → Gives s u (⟨op, ans⟩ :: trace) w

theorem Gives.trans {u v : W} {trace trace' : List (Σ op, Ans op)} (h : Gives s w trace u)
    (h' : Gives s u trace' v) : Gives s w (trace ++ trace') v := by
  induction h with
  | here => exact h'
  | call hans _ ih => exact .call hans (ih h')

/-- A program goes on as long as the world answers. -/
theorem Runs.leads {u v : W} {p q : Program Op Ans α} {running : List (Program Op Ans α)}
    {trace : List (Σ op, Ans op)} (h : Runs s starts w ⟨u, p :: running⟩) (hleads : Leads p trace q)
    (hgives : Gives s u trace v) : Runs s starts w ⟨v, q :: running⟩ := by
  induction hleads generalizing u with
  | here =>
    cases hgives
    exact h
  | call op ans _ ih =>
    cases hgives with
    | call hans hgives => exact ih (h.step (.call [] running ans hans)) hgives

/-- The invariant holds, and every program under way keeps it. -/
def Sound (s : System W Op Ans) (I : W → Prop) (x : Pool W Op Ans α) : Prop :=
  I x.world ∧ ∀ p ∈ x.running, Keeps s I (fun _ _ => True) p x.world

theorem Step.sound (hstarts : ∀ p, starts p → ∀ w, Keeps s I (fun _ _ => True) p w)
    (hdisturbs : ∀ w w', I w → s.disturbs w w' → I w') (h : Step s starts x y)
    (hs : Sound s I x) : Sound s I y := by
  obtain ⟨hi, hkeeps⟩ := hs
  cases h with
  | start p hp =>
    refine ⟨hi, fun q hq => ?_⟩
    obtain rfl | hq := List.mem_cons.mp hq
    · exact hstarts q hp _
    · exact hkeeps q hq
  | @call w w' before after op next ans hans =>
    have hlater := s.answers_later hans
    obtain ⟨hi', hnext⟩ := hkeeps (.call op next) (by simp) w ans w' (s.later_refl w) hi hans
    refine ⟨hi', fun q hq => ?_⟩
    have hother : q ∈ before ++ .call op next :: after → Keeps s I (fun _ _ => True) q w' :=
      fun hq => (hkeeps q hq).later hlater fun _ _ _ _ _ => trivial
    rcases List.mem_append.mp hq with hq | hq
    · exact hother (List.mem_append_left _ hq)
    · obtain rfl | hq := List.mem_cons.mp hq
      · exact hnext
      · exact hother (List.mem_append_right _ (List.mem_cons_of_mem _ hq))
  | @stop w before after p =>
    refine ⟨hi, fun q hq => hkeeps q ?_⟩
    rcases List.mem_append.mp hq with hq | hq
    · exact List.mem_append_left _ hq
    · exact List.mem_append_right _ (List.mem_cons_of_mem _ hq)
  | disturb hd =>
    exact ⟨hdisturbs _ _ hi hd,
      fun q hq => (hkeeps q hq).later (s.disturbs_later hd) fun _ _ _ _ _ => trivial⟩

/-- What every program keeps on its own, and no disturbance breaks, holds however the programs
interleave. -/
theorem Runs.invariant (hstarts : ∀ p, starts p → ∀ w, Keeps s I (fun _ _ => True) p w)
    (hdisturbs : ∀ w w', I w → s.disturbs w w' → I w') (hi : I w) (h : Runs s starts w x) :
    I x.world := by
  have hsound : Sound s I x := by
    induction h with
    | start => exact ⟨hi, by simp⟩
    | step _ hstep ih => exact hstep.sound hstarts hdisturbs ih
  exact hsound.1

end LearningOrbit.Threads
