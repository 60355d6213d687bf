import Mathlib.Data.List.Sort

/-!
# Working off a queue in batches

A round takes the first few of a queue. Some of what it takes stays where it is, at the head of
the queue, and the rest leaves. Whoever has too many of those that stay before it is never taken.
-/

namespace LearningOrbit.Batches

variable {α : Type} (size : Nat) (stays : α → Bool)

/-- The queue after a round. -/
def round (queue : List α) : List α := (queue.take size).filter stays ++ queue.drop size

/-- What so many rounds have taken. -/
def taken : Nat → List α → List α
  | 0, _ => []
  | n + 1, queue => queue.take size ++ taken n (round size stays queue)

variable {size stays}

theorem mem_of_mem_taken {n : Nat} {queue : List α} {x : α} (h : x ∈ taken size stays n queue) :
    x ∈ queue := by
  induction n generalizing queue with
  | zero => cases h
  | succ n ih =>
    rcases List.mem_append.mp h with h | h
    · exact List.mem_of_mem_take h
    · rcases List.mem_append.mp (ih h) with h | h
      · exact List.mem_of_mem_take (List.mem_filter.mp h).1
      · exact List.mem_of_mem_drop h

/-- A batch that all stays is taken again and again. -/
theorem not_mem_taken {kept rest : List α} {x : α} (hstays : ∀ k ∈ kept, stays k = true)
    (hx : x ∉ kept) (hsize : size ≤ kept.length) (n : Nat) :
    x ∉ taken size stays n (kept ++ rest) := by
  induction n with
  | zero => simp [taken]
  | succ n ih =>
    have htake : (kept ++ rest).take size = kept.take size :=
      List.take_append_of_le_length hsize
    have hround : round size stays (kept ++ rest) = kept ++ rest := by
      have hfilter : (kept.take size).filter stays = kept.take size :=
        List.filter_eq_self.mpr fun k hk => hstays k (List.mem_of_mem_take hk)
      rw [round, htake, hfilter, ← htake, List.take_append_drop]
    rw [taken, htake, hround, List.mem_append, not_or]
    exact ⟨fun h => hx (List.mem_of_mem_take h), ih⟩

theorem mem_taken_kept {kept before after : List α} {x : α} {n : Nat}
    (hstays : ∀ k ∈ kept, stays k = true) (hx : x ∉ kept) (hbefore : x ∉ before)
    (hn : before.length < n) :
    x ∈ taken size stays n (kept ++ before ++ x :: after) ↔
      kept.length + before.countP stays < size := by
  induction n generalizing kept before with
  | zero => omega
  | succ n ih =>
    by_cases hsize : size ≤ kept.length
    · rw [List.append_assoc]
      refine iff_of_false (not_mem_taken hstays hx hsize _) (by omega)
    · by_cases hreached : before.length < size - kept.length
      · refine iff_of_true ?_ ?_
        · rw [taken, List.mem_append]
          left
          rw [List.take_append, List.mem_append]
          right
          obtain ⟨m, hm⟩ : ∃ m, size - (kept ++ before).length = m + 1 :=
            ⟨size - (kept ++ before).length - 1, by rw [List.length_append]; omega⟩
          rw [hm, List.take_succ_cons]
          exact List.mem_cons_self
        · have hcount : before.countP stays ≤ before.length := List.countP_le_length
          omega
      · have hsplit : (kept ++ before ++ x :: after) =
            (kept ++ before.take (size - kept.length)) ++
              (before.drop (size - kept.length) ++ x :: after) := by
          rw [List.append_assoc, List.append_assoc, ← List.append_assoc (before.take _),
            List.take_append_drop]
        have hlength : (kept ++ before.take (size - kept.length)).length = size := by
          rw [List.length_append, List.length_take]
          omega
        have htake : (kept ++ before ++ x :: after).take size =
            kept ++ before.take (size - kept.length) := by
          rw [hsplit, List.take_append_of_le_length (by omega), List.take_of_length_le (by omega)]
        have hround : round size stays (kept ++ before ++ x :: after) =
            (kept ++ (before.take (size - kept.length)).filter stays) ++
              before.drop (size - kept.length) ++ x :: after := by
          have hkept : kept.filter stays = kept := List.filter_eq_self.mpr hstays
          have hdrop : (kept ++ before ++ x :: after).drop size =
              before.drop (size - kept.length) ++ x :: after := by
            rw [hsplit, List.drop_append_of_le_length (by omega), List.drop_of_length_le (by omega)]
            rfl
          rw [round, htake, hdrop, List.filter_append, hkept]
          simp
        have hcount : before.countP stays = (before.take (size - kept.length)).countP stays +
            (before.drop (size - kept.length)).countP stays := by
          rw [← List.countP_append, List.take_append_drop]
        have hnot : x ∉ kept ++ before.take (size - kept.length) := by
          rw [List.mem_append, not_or]
          exact ⟨hx, fun h => hbefore (List.mem_of_mem_take h)⟩
        rw [taken, htake, hround, List.mem_append, or_iff_right hnot, ih]
        · rw [List.length_append, ← List.countP_eq_length_filter]
          omega
        · intro k hk
          rcases List.mem_append.mp hk with hk | hk
          · exact hstays k hk
          · exact (List.mem_filter.mp hk).2
        · rw [List.mem_append, not_or]
          exact ⟨hx, fun h => hbefore (List.mem_of_mem_take (List.mem_filter.mp h).1)⟩
        · exact fun h => hbefore (List.mem_of_mem_drop h)
        · rw [List.length_drop]
          omega

/-- As many rounds as the queue is long take exactly those that have fewer than a batch of those
that stay before them. -/
theorem mem_taken_iff {before after : List α} {x : α} {n : Nat} (hx : x ∉ before)
    (hn : before.length < n) :
    x ∈ taken size stays n (before ++ x :: after) ↔ before.countP stays < size := by
  have h : x ∈ taken size stays n ([] ++ before ++ x :: after) ↔
      ([] : List α).length + before.countP stays < size :=
    mem_taken_kept (fun k hk => by cases hk) List.not_mem_nil hx hn
  simpa using h

/-! ## Queues in an order -/

section

variable {r : α → α → Prop} [DecidableRel r]

theorem filter_orderedInsert [IsTrans α r] {l : List α} (hl : l.Pairwise r) (a : α)
    (p : α → Bool) :
    (l.orderedInsert r a).filter p =
      if p a then (l.filter p).orderedInsert r a else l.filter p := by
  induction l with
  | nil => cases hp : p a <;> simp [hp]
  | cons b l ih =>
    obtain ⟨hb, hl⟩ := List.pairwise_cons.mp hl
    by_cases hab : r a b
    · rw [List.orderedInsert_cons_of_le r l hab]
      have hbefore : ∀ c ∈ (b :: l).filter p, r a c := by
        intro c hc
        rcases List.mem_cons.mp (List.mem_filter.mp hc).1 with rfl | hc
        · exact hab
        · exact IsTrans.trans a b c hab (hb c hc)
      have hinsert : ((b :: l).filter p).orderedInsert r a = a :: (b :: l).filter p := by
        cases hf : (b :: l).filter p with
        | nil => rfl
        | cons c cs =>
          exact List.orderedInsert_cons_of_le r cs
            (hbefore c (by rw [hf]; exact List.mem_cons_self))
      cases hp : p a with
      | true => rw [List.filter_cons_of_pos hp, hinsert, if_pos rfl]
      | false => rw [List.filter_cons_of_neg (by simp [hp]), if_neg (by simp)]
    · rw [List.orderedInsert_of_not_le r l hab]
      cases hp : p b with
      | true =>
        rw [List.filter_cons_of_pos hp, List.filter_cons_of_pos hp, ih hl]
        cases p a with
        | true => rw [if_pos rfl, if_pos rfl, List.orderedInsert_of_not_le r _ hab]
        | false => rfl
      | false =>
        rw [List.filter_cons_of_neg (by simp [hp]), List.filter_cons_of_neg (by simp [hp]), ih hl]

/-- Those who are left stand in the order they stood in. -/
theorem insertionSort_filter [IsTrans α r] [Std.Total r] (l : List α) (p : α → Bool) :
    (l.filter p).insertionSort r = (l.insertionSort r).filter p := by
  induction l with
  | nil => rfl
  | cons a l ih =>
    rw [List.insertionSort_cons, filter_orderedInsert (List.pairwise_insertionSort r l)]
    cases hp : p a with
    | true => rw [List.filter_cons_of_pos hp, List.insertionSort_cons, ih, if_pos rfl]
    | false => rw [List.filter_cons_of_neg (by simp [hp]), ih, if_neg (by simp)]

end

end LearningOrbit.Batches
