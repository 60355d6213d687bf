import LearningOrbit.Canonical.Parser

/-!
# What the parser reads

Each part of the parser takes units off the input and counts the values it met. A value is
never read from fewer bytes than the encoder writes it in.
-/

namespace LearningOrbit.Canonical

open LearningOrbit.Utf16 Json

/-! ## What was read -/

theorem Reads.trans {a b : Nat} {t u w : Text} (h : Reads a t u) (h' : Reads b u w) :
    Reads (a + b) t w := by
  obtain ⟨units, rfl, hcost⟩ := h
  obtain ⟨units', rfl, hcost'⟩ := h'
  refine ⟨units ++ units', by rw [List.append_assoc], ?_⟩
  rw [weigh_append]
  omega

theorem Reads.head {u : CodeUnit} {t : Text} : Reads 1 (u :: t) t :=
  ⟨[u], rfl, length_le_weigh [u]⟩

theorem Reads.skip (t : Text) : Reads 0 t (skipWhitespace t) :=
  ⟨t.takeWhile isWhitespace, List.takeWhile_append_dropWhile.symm, Nat.zero_le _⟩

theorem Reads.length {cost : Nat} {t rest : Text} (h : Reads cost t rest) (hcost : 0 < cost) :
    rest.length < t.length := by
  obtain ⟨units, rfl, hle⟩ := h
  have hpos : units ≠ [] := by
    rintro rfl
    exact absurd (Nat.lt_of_lt_of_le hcost hle) (by decide)
  rw [List.length_append]
  have := List.length_pos_iff.mpr hpos
  omega

/-- What a part of the parser read between two states, and the values it met. -/
structure Took (cost count : Nat) (s s' : State) : Prop where
  reads : Reads cost s.rest s'.rest
  nodes : s'.nodes = s.nodes + count
  bound : s'.nodes ≤ maxNodes

theorem Took.trans {a b c d : Nat} {s s' s'' : State} (h : Took a c s s') (h' : Took b d s' s'') :
    Took (a + b) (c + d) s s'' :=
  ⟨h.reads.trans h'.reads, by rw [h'.nodes, h.nodes, Nat.add_assoc], h'.bound⟩

section

variable {α : Type} {element : List α → State → Option (α × State)} {close : CodeUnit}
  {cost count : α → Nat} {Q : List α → Prop} {result all : List α} {s s' : State} {fuel : Nat}

/-- What one element takes, and what is kept of the elements read so far. -/
def TakesEach (cost count : α → Nat) (Q : List α → Prop)
    (element : List α → State → Option (α × State)) : Prop :=
  ∀ result s a s', Q result → element result s = some (a, s') →
    Took (cost a) (count a) s s' ∧ Q (result ++ [a])

theorem elements_eq_some (helement : TakesEach cost count Q element)
    (h : elements element close fuel result s = some (all, s')) (hresult : Q result) :
    ∃ more, all = result ++ more ∧ more ≠ [] ∧ Q all ∧
      Took (more.map fun a => cost a + 1).sum (more.map count).sum s s' := by
  induction fuel generalizing result s with
  | zero => cases h
  | succ fuel ih =>
    simp only [elements, Option.bind_eq_some_iff, Prod.exists] at h
    obtain ⟨a, s₁, ha, h⟩ := h
    obtain ⟨htook, hQ⟩ := helement _ _ _ _ hresult ha
    have hskip := Reads.skip s₁.rest
    split at h
    · cases h
    next delimiter rest hrest =>
      rw [hrest] at hskip
      have hdelimiter : Took (cost a + 1) (count a) s ⟨rest, s₁.nodes⟩ :=
        htook.trans (b := 1) (d := 0) ⟨(hskip.trans .head), rfl, htook.bound⟩
      split_ifs at h
      · obtain ⟨rfl, rfl⟩ := Prod.mk.inj (Option.some.inj h)
        exact ⟨[a], rfl, by simp, hQ, by simpa using hdelimiter⟩
      · obtain ⟨more, rfl, -, hall, hmore⟩ := ih h hQ
        refine ⟨a :: more, by simp, by simp, hall, ?_⟩
        rw [List.map_cons, List.map_cons, List.sum_cons, List.sum_cons]
        have hnext : Took 0 0 ⟨rest, s₁.nodes⟩ ⟨skipWhitespace rest, s₁.nodes⟩ :=
          ⟨Reads.skip rest, rfl, htook.bound⟩
        simpa using (hdelimiter.trans hnext).trans hmore

/-- A comma or a bracket ends each element, and the first bracket stands before them. -/
theorem bracketed_eq_some (helement : TakesEach cost count Q element)
    (h : bracketed element close s = some (all, s')) (hempty : Q []) (hbound : s.nodes ≤ maxNodes) :
    Q all ∧ Took (1 + ((all.map fun a => cost a + 1).sum - 1)) (all.map count).sum s s' := by
  have hskip : Took 0 0 s ⟨skipWhitespace s.rest, s.nodes⟩ := ⟨Reads.skip s.rest, rfl, hbound⟩
  simp only [bracketed] at h
  split_ifs at h with hclose
  · obtain ⟨rfl, rfl⟩ := Prod.mk.inj (Option.some.inj h)
    obtain ⟨rest, hrest⟩ := List.head?_eq_some_iff.mp hclose
    have hhead : Took 1 0 ⟨close :: rest, s.nodes⟩ ⟨rest, s.nodes⟩ := ⟨Reads.head, rfl, hbound⟩
    rw [hrest] at hskip ⊢
    exact ⟨hempty, by simpa using hskip.trans hhead⟩
  · obtain ⟨more, hall, hmore, hQ, htook⟩ := elements_eq_some helement h hempty
    obtain rfl : all = more := hall
    refine ⟨hQ, ?_⟩
    have hpos : 1 ≤ (all.map fun a => cost a + 1).sum := by
      obtain ⟨a, more, rfl⟩ := List.exists_cons_of_ne_nil hmore
      rw [List.map_cons, List.sum_cons]
      omega
    have hcost : 1 + ((all.map fun a => cost a + 1).sum - 1) =
        0 + (all.map fun a => cost a + 1).sum := by omega
    rw [hcost]
    simpa using hskip.trans htook

/-- The loop never runs out: as many rounds as units are left are enough. -/
theorem elements_fuel (helement : TakesEach cost count Q element)
    (hresult : Q result) (hfuel : s.rest.length ≤ fuel) :
    elements element close (fuel + 1) result s = elements element close fuel result s := by
  induction fuel generalizing result s with
  | zero =>
    rw [elements, elements, Option.bind_eq_none_iff]
    rintro ⟨a, s₁⟩ ha
    obtain ⟨units, hunits, -⟩ := (helement _ _ _ _ hresult ha).1.reads
    have hrest : s₁.rest = [] := by
      apply List.eq_nil_of_length_eq_zero
      have hlength := congrArg List.length hunits
      rw [List.length_append] at hlength
      omega
    simp [hrest, skipWhitespace]
  | succ fuel ih =>
    rw [elements, elements]
    apply Option.bind_congr
    rintro ⟨a, s₁⟩ ha
    obtain ⟨htook, hQ⟩ := helement _ _ _ _ hresult ha
    cases hrest : skipWhitespace s₁.rest with
    | nil => simp only [hrest]
    | cons delimiter rest =>
      have hreads := (htook.reads.trans (hrest ▸ Reads.skip s₁.rest)).trans Reads.head
      have hlength := (hreads.trans (Reads.skip rest)).length (Nat.succ_pos _)
      simp only [hrest]
      rw [ih hQ (by simp only; omega)]

end

theorem take_eq_some {keyword t rest : Text} (h : take keyword t = some rest) :
    Reads (weigh keyword) t rest := by
  obtain ⟨hkeyword, hrest⟩ := Option.ite_none_right_eq_some.mp h
  refine ⟨keyword, ?_, Nat.le_refl _⟩
  rw [← Option.some.inj hrest]
  calc t = t.take keyword.length ++ t.drop keyword.length := (List.take_append_drop _ t).symm
    _ = keyword ++ t.drop keyword.length := by rw [hkeyword]

/-- What is known of a value read at a depth. -/
def Read (depth : Nat) (v : Json) : Prop := Sound assertWellFormedString depth v ∧ v.Keyed

def FieldsRead (depth : Nat) (fields : List (Text × Json)) : Prop :=
  (fields.map Prod.fst).Nodup ∧
    ∀ field ∈ fields, assertWellFormedString field.1 = true ∧ Read depth field.2

theorem read_arr {depth : Nat} {items : List Json} (hdepth : depth ≤ maxDepth)
    (h : ∀ v ∈ items, Read (depth + 1) v) : Read depth (.arr items) :=
  ⟨sound_arr.mpr ⟨hdepth, fun v hv => (h v hv).1⟩, keyedItems_iff.mpr fun v hv => (h v hv).2⟩

theorem read_obj {depth : Nat} {fields : List (Text × Json)} (hdepth : depth ≤ maxDepth)
    (h : FieldsRead (depth + 1) fields) : Read depth (.obj fields) :=
  ⟨sound_obj.mpr ⟨hdepth, fun field hfield => ⟨(h.2 field hfield).1, (h.2 field hfield).2.1⟩⟩,
    h.1, keyedFields_iff.mpr fun field hfield => (h.2 field hfield).2.2⟩

/-- What a parser of values does at a depth. -/
def Parses (depth : Nat) (value : State → Option (Json × State)) : Prop :=
  ∀ s v s', value s = some (v, s') → Took (size v) v.nodes s s' ∧ Read depth v

section

variable {depth : Nat} {value : State → Option (Json × State)} {s s' : State}

theorem array_eq_some (hvalue : Parses (depth + 1) value) (hdepth : depth ≤ maxDepth) {v : Json}
    (h : array value s = some (v, s')) (hbound : s.nodes ≤ maxNodes) :
    Took (1 + (size v - 2)) (v.nodes - 1) s s' ∧ 2 ≤ size v ∧ 1 ≤ v.nodes ∧ Read depth v := by
  simp only [array, Option.map_eq_some_iff, Prod.exists, Prod.mk.injEq] at h
  obtain ⟨items, s₁, hitems, rfl, rfl⟩ := h
  have heach : TakesEach size Json.nodes (fun items => ∀ v ∈ items, Read (depth + 1) v)
      fun _ => value := by
    intro result s v s' hresult hv
    obtain ⟨htook, hread⟩ := hvalue s v s' hv
    exact ⟨htook, List.forall_mem_append.mpr ⟨hresult, by simpa using hread⟩⟩
  obtain ⟨hread, htook⟩ := bracketed_eq_some heach hitems (by simp) hbound
  rw [size, Json.nodes, sizeOfItems_eq, nodesOfItems_eq, Nat.add_sub_cancel_left,
    Nat.add_sub_cancel_left]
  exact ⟨htook, Nat.le_add_right 2 _, Nat.le_add_right 1 _, read_arr hdepth hread⟩

/-- What a member takes. -/
def memberCost (field : Text × Json) : Nat := weigh (encodeString field.1) + 1 + size field.2

theorem member_eq_some (hvalue : Parses (depth + 1) value) {members : List (Text × Json)}
    {field : Text × Json} (hmembers : FieldsRead (depth + 1) members)
    (h : member value members s = some (field, s')) :
    Took (memberCost field) field.2.nodes s s' ∧ FieldsRead (depth + 1) (members ++ [field]) := by
  simp only [member, Option.ite_none_right_eq_some, Option.bind_eq_some_iff, Prod.exists,
    Option.ite_none_left_eq_some, Option.map_eq_some_iff, Prod.mk.injEq] at h
  obtain ⟨hquote, key, rest, hkey, hnew, hcolon, v, s₁, hv, rfl, rfl⟩ := h
  obtain ⟨hok, more, hmore, hstring⟩ := string_eq_some hkey
  obtain rfl : key = more := hmore
  obtain ⟨htook, hread⟩ := hvalue _ _ _ hv
  obtain ⟨t, ht⟩ := List.head?_eq_some_iff.mp hquote
  obtain ⟨u, hu⟩ := List.head?_eq_some_iff.mp hcolon
  constructor
  · have hreads : Reads (weigh (encodeString key) + 1) s.rest (skipWhitespace u) := by
      have hcolonreads := (Reads.skip rest).trans (hu ▸ Reads.head)
      rw [ht, List.tail_cons] at hstring
      rw [ht]
      have := ((Reads.head (u := quote)).trans hstring).trans (hcolonreads.trans (Reads.skip u))
      obtain ⟨units, hunits, hcost⟩ := this
      refine ⟨units, hunits, ?_⟩
      rw [encodeString, weigh_within (by decide) (by decide)]
      omega
    rw [hu, List.tail_cons] at htook
    exact ⟨hreads.trans htook.reads, htook.nodes, htook.bound⟩
  · constructor
    · rw [List.map_append, List.nodup_append]
      refine ⟨hmembers.1, by simp, ?_⟩
      simp only [List.map_cons, List.map_nil, List.mem_singleton]
      rintro a ha b rfl rfl
      exact hnew ha
    · rw [List.forall_mem_append]
      exact ⟨hmembers.2, by simpa using ⟨hok, hread⟩⟩

theorem member_takes (hvalue : Parses (depth + 1) value) :
    TakesEach memberCost (fun field => field.2.nodes) (FieldsRead (depth + 1)) (member value) :=
  fun _ _ _ _ hmembers hfield => member_eq_some hvalue hmembers hfield

theorem object_eq_some (hvalue : Parses (depth + 1) value) (hdepth : depth ≤ maxDepth) {v : Json}
    (h : object value s = some (v, s')) (hbound : s.nodes ≤ maxNodes) :
    Took (1 + (size v - 2)) (v.nodes - 1) s s' ∧ 2 ≤ size v ∧ 1 ≤ v.nodes ∧ Read depth v := by
  simp only [object, Option.map_eq_some_iff, Prod.exists, Prod.mk.injEq] at h
  obtain ⟨fields, s₁, hfields, rfl, rfl⟩ := h
  obtain ⟨hread, htook⟩ := bracketed_eq_some (member_takes hvalue) hfields ⟨by simp, by simp⟩ hbound
  rw [size, Json.nodes, sizeOfFields_eq, nodesOfFields_eq, Nat.add_sub_cancel_left,
    Nat.add_sub_cancel_left]
  exact ⟨htook, Nat.le_add_right 2 _, Nat.le_add_right 1 _, read_obj hdepth hread⟩

end

/-- What is read at a depth is sound there, and was not written in less than it is written with. -/
theorem value_parses {budget depth : Nat} (hbudget : depth + budget = maxDepth + 1) :
    Parses depth (value budget) := by
  induction budget generalizing depth with
  | zero =>
    intro s v s' h
    cases h
  | succ budget ih =>
    have hvalue : Parses (depth + 1) (value budget) := ih (by omega)
    have hdepth : depth ≤ maxDepth := by omega
    intro s v s' h
    rw [value, Option.ite_none_left_eq_some] at h
    obtain ⟨hnodes, h⟩ := h
    have hbound : s.nodes + 1 ≤ maxNodes := by omega
    split at h
    · cases h
    next next rest hrest =>
      have hopen : Took 1 1 s ⟨rest, s.nodes + 1⟩ := ⟨hrest ▸ Reads.head, rfl, hbound⟩
      -- a leaf took its own text, and is one value
      have hleaf : ∀ {v : Json} {tail : Text}, v.height = 0 → v.nodes = 1 → v.Keyed →
          (∀ t ∈ v.texts, assertWellFormedString t = true) →
          (∀ n ∈ v.numbers, isSafeInteger n = true) → Reads (size v) s.rest tail →
          Took (size v) v.nodes s ⟨tail, s.nodes + 1⟩ ∧ Read depth v := by
        intro v tail hheight hcount hkeyed htexts hnumbers hreads
        exact ⟨⟨hreads, by rw [hcount], hbound⟩, ⟨by omega, htexts, hnumbers⟩, hkeyed⟩
      have hbrackets : 2 ≤ size v → 1 ≤ v.nodes →
          Took (1 + (size v - 2)) (v.nodes - 1) ⟨rest, s.nodes + 1⟩ s' →
          Took (size v) v.nodes s s' := by
        intro hsize hcount htook
        have hboth := hopen.trans htook
        rwa [show 1 + (1 + (size v - 2)) = size v by omega,
          show 1 + (v.nodes - 1) = v.nodes by omega] at hboth
      split_ifs at h with h1 h2 h3 h4 h5 h6 h7
      · obtain ⟨htook, hsize, hcount, hread⟩ := object_eq_some hvalue hdepth h hbound
        exact ⟨hbrackets hsize hcount htook, hread⟩
      · obtain ⟨htook, hsize, hcount, hread⟩ := array_eq_some hvalue hdepth h hbound
        exact ⟨hbrackets hsize hcount htook, hread⟩
      · simp only [Option.map_eq_some_iff, Prod.exists, Prod.mk.injEq] at h
        obtain ⟨text, tail, hstring, rfl, rfl⟩ := h
        obtain ⟨hok, more, hmore, hreads⟩ := string_eq_some hstring
        obtain rfl : text = more := hmore
        refine hleaf (v := .str text) rfl rfl trivial (by simpa [texts] using hok)
          (by simp [numbers]) ?_
        have hcost : size (.str text) = 1 + (weigh (text.flatMap escape) + 1) := by
          rw [size, encodeString, weigh_within (by decide) (by decide)]
          omega
        rw [hcost]
        exact hopen.reads.trans hreads
      · obtain ⟨tail, htake, heq⟩ := Option.map_eq_some_iff.mp h
        cases heq
        exact hleaf (v := .bool true) rfl rfl trivial (by simp [texts]) (by simp [numbers]) (take_eq_some htake)
      · obtain ⟨tail, htake, heq⟩ := Option.map_eq_some_iff.mp h
        cases heq
        exact hleaf (v := .bool false) rfl rfl trivial (by simp [texts]) (by simp [numbers]) (take_eq_some htake)
      · obtain ⟨tail, htake, heq⟩ := Option.map_eq_some_iff.mp h
        cases heq
        exact hleaf (v := .null) rfl rfl trivial (by simp [texts]) (by simp [numbers]) (take_eq_some htake)
      · simp only [Option.map_eq_some_iff, Prod.exists, Prod.mk.injEq] at h
        obtain ⟨n, tail, hinteger, rfl, rfl⟩ := h
        obtain ⟨htext, hsafe⟩ := integer_eq_some hinteger
        refine hleaf (v := .num n) rfl rfl trivial (by simp [texts]) (by simpa [numbers] using hsafe)
          ⟨numberText n, htext, ?_⟩
        rw [size, weigh_of_ascii (ascii_numberText n)]

theorem items_fuel {budget depth fuel : Nat} (hbudget : depth + budget = maxDepth + 1) {s : State}
    (hfuel : s.rest.length ≤ fuel) :
    elements (fun _ => value budget) (unit ']') (fuel + 1) [] s =
      elements (fun _ => value budget) (unit ']') fuel [] s := by
  have heach : TakesEach size Json.nodes (fun _ => True) fun _ => value budget :=
    fun _ s v s' _ hv => ⟨(value_parses hbudget s v s' hv).1, trivial⟩
  exact elements_fuel heach trivial hfuel

theorem members_fuel {budget depth fuel : Nat} (hbudget : depth + 1 + budget = maxDepth + 1)
    {s : State} (hfuel : s.rest.length ≤ fuel) :
    elements (member (value budget)) (unit '}') (fuel + 1) [] s =
      elements (member (value budget)) (unit '}') fuel [] s :=
  elements_fuel (member_takes (value_parses hbudget)) ⟨by simp, by simp⟩ hfuel

theorem parse_eq_some {t : Text} {v : Json} (h : parse t = some v) :
    Accepted assertWellFormedString v ∧ v.Keyed ∧ size v ≤ byteLength t := by
  simp only [parse, Option.ite_none_left_eq_some, Option.bind_eq_some_iff, Prod.exists,
    Option.ite_none_right_eq_some, Option.some.injEq] at h
  obtain ⟨hinput, v, s, hvalue, -, rfl⟩ := h
  obtain ⟨htook, hsound, hkeyed⟩ := value_parses (Nat.zero_add _) _ _ _ hvalue
  have hsize : size v ≤ byteLength t := by
    obtain ⟨units, hunits, hcost⟩ := (Reads.skip t).trans htook.reads
    have hweigh := weigh_append units s.rest
    rw [← hunits] at hweigh
    have := weigh_le t
    omega
  have hnodes := htook.nodes
  have hbound := htook.bound
  have hlimit : maxInputBytes = maxOutputBytes := rfl
  exact ⟨⟨hsound, by omega, by omega⟩, hkeyed, hsize⟩

end LearningOrbit.Canonical
