import LearningOrbit.Reference.Outcomes

/-!
# A replay that fails

`replay` replaces the history, resets the runtime and applies the inputs one by
one; when one of them raises, only the lateness is put back. A ledger accounts for
every input but those it found outdated, so what the inputs before the failing one
leave is never what all of them left.
-/

namespace LearningOrbit.Reference

open LearningOrbit (Host Dict)
open LearningOrbit.Journal (refeed)

abbrev Ledger := Dict String (List EventLedgerEntry)

/-- An event the ledger has an entry for. -/
def Entered (ledger : Ledger) (event : ChatEvent) : Prop :=
  ∃ id entries, ledger.get? id = some entries ∧ ∃ entry ∈ entries, entry.event = event

def activeRevisions (ledger : Ledger) (id : String) : List Nat :=
  (((ledger.get? id).getD []).filter (·.active)).map (·.event.revision)

/-- An added event no newer than an active one of its id. -/
def Outdated (ledger : Ledger) (event : ChatEvent) : Prop :=
  event.operation = .add ∧ ∃ highest, (activeRevisions ledger event.eventId).max? = some highest ∧
    event.revision ≤ highest

/-- The keys seen and the ledger, before and after an operation that does not raise. -/
inductive Notes (event : ChatEvent) :
    List (String × Nat × Operation) × Ledger → List (String × Nat × Operation) × Ledger → Prop
  | duplicate {seen : List (String × Nat × Operation)} {ledger : Ledger}
      (hseen : event.key ∈ seen) : Notes event (seen, ledger) (seen, ledger)
  | outdated {seen : List (String × Nat × Operation)} {ledger : Ledger}
      (hnew : event.key ∉ seen) (ho : Outdated ledger event) :
    Notes event (seen, ledger) (seen ++ [event.key], ledger)
  | entered {seen : List (String × Nat × Operation)} {ledger ledger' : Ledger}
      (hnew : event.key ∉ seen) (he : Entered ledger' event)
      (hold : ∀ other, Entered ledger' other → other = event ∨ Entered ledger other) :
    Notes event (seen, ledger) (seen ++ [event.key], ledger')

/-- The account of the events `done`: every key was seen, every entry is one of theirs, and an
event that came after all the entries was outdated. -/
structure Recount (done : List ChatEvent) (s : List (String × Nat × Operation) × Ledger) :
    Prop where
  seen : ∀ key, key ∈ s.1 ↔ key ∈ done.map ChatEvent.key
  entries : ∀ event, Entered s.2 event → event.key ∈ s.1
  last : ∀ before event after, done = before ++ event :: after →
    event.key ∉ before.map ChatEvent.key →
    (∀ other, Entered s.2 other → other.key ∈ before.map ChatEvent.key) → Outdated s.2 event

theorem not_entered_empty (event : ChatEvent) : ¬Entered .empty event := by
  rintro ⟨id, entries, hget, -⟩
  cases hget

theorem Recount.init : Recount [] ([], .empty) where
  seen _ := Iff.rfl
  entries event he := absurd he (not_entered_empty event)
  last before event after heq := by simp at heq

/-- The last of the new list is the new event, or the account is one of the old list. -/
theorem snoc_split {α : Type} {done before after : List α} {a event : α}
    (heq : done ++ [a] = before ++ event :: after) :
    (after = [] ∧ event = a ∧ before = done) ∨
      ∃ rest, after = rest ++ [a] ∧ done = before ++ event :: rest := by
  cases after using List.reverseRecOn with
  | nil =>
    obtain ⟨hd, ha⟩ := List.append_inj' heq rfl
    exact .inl ⟨rfl, (List.cons.inj ha).1.symm, hd.symm⟩
  | append_singleton rest last =>
    rw [← List.cons_append, ← List.append_assoc] at heq
    obtain ⟨hd, ha⟩ := List.append_inj' heq rfl
    exact .inr ⟨rest, by rw [(List.cons.inj ha).1], hd⟩

theorem Recount.step {done : List ChatEvent} {event : ChatEvent}
    {s t : List (String × Nat × Operation) × Ledger} (hs : Recount done s)
    (hn : Notes event s t) : Recount (done ++ [event]) t := by
  cases hn with
  | @duplicate seen ledger hseen =>
    have hdone : event.key ∈ done.map ChatEvent.key := (hs.seen _).mp hseen
    refine ⟨fun key => ?_, hs.entries, fun before other after heq hfirst hall => ?_⟩
    · rw [hs.seen]
      simp only [List.map_append, List.mem_append, List.map_cons, List.map_nil,
        List.mem_singleton]
      exact ⟨.inl, fun hk => hk.elim id fun hk => hk ▸ hdone⟩
    · rcases snoc_split heq with ⟨-, rfl, rfl⟩ | ⟨rest, -, hrest⟩
      · exact absurd hdone hfirst
      · exact hs.last before other rest hrest hfirst hall
  | @outdated seen ledger hnew ho =>
    refine ⟨fun key => ?_, fun other he => ?_, fun before other after heq hfirst hall => ?_⟩
    · simp [hs.seen]
    · exact List.mem_append_left _ (hs.entries other he)
    · rcases snoc_split heq with ⟨-, rfl, -⟩ | ⟨rest, -, hrest⟩
      · exact ho
      · exact hs.last before other rest hrest hfirst hall
  | @entered seen ledger ledger' hnew he hold =>
    refine ⟨fun key => ?_, fun other ho => ?_, fun before other after heq hfirst hall => ?_⟩
    · simp [hs.seen]
    · rcases hold other ho with rfl | ho
      · simp
      · exact List.mem_append_left _ (hs.entries other ho)
    · -- the new entry is not among the events before
      exfalso
      have hkey := hall event he
      rcases snoc_split heq with ⟨-, rfl, -⟩ | ⟨rest, -, hrest⟩
      · exact hfirst hkey
      · apply hnew
        rw [hs.seen, hrest]
        simp only [List.map_append, List.mem_append]
        exact .inl hkey

/-- A ledger that accounts for all events is not the ledger of the events before one that is
neither a duplicate nor outdated. -/
theorem Recount.differs {before after : List ChatEvent} {event : ChatEvent}
    {s u : List (String × Nat × Operation) × Ledger}
    (hs : Recount (before ++ event :: after) s) (hu : Recount before u)
    (hnew : event.key ∉ u.1) (hfresh : ¬Outdated u.2 event) : u.2 ≠ s.2 := by
  intro heq
  have hfirst : event.key ∉ before.map ChatEvent.key := fun hk => hnew ((hu.seen _).mpr hk)
  have hout := hs.last before event after rfl hfirst fun other ho =>
    (hu.seen _).mp (hu.entries other (heq ▸ ho))
  exact hfresh (heq ▸ hout)

/-! ## What the reducers write into the ledger -/

theorem entered_modify {ledger : Ledger} {event other : ChatEvent} {active requiresReplay : Bool} :
    Entered (ledger.modify event.eventId [] (· ++ [⟨event, active, requiresReplay⟩])) other ↔
      other = event ∨ Entered ledger other := by
  constructor
  · rintro ⟨id, entries, hget, entry, hentry, rfl⟩
    rw [Dict.get?_modify] at hget
    split at hget
    · cases hget
      rcases List.mem_append.mp hentry with hentry | hentry
      · cases hold : ledger.get? event.eventId with
        | none => simp [hold] at hentry
        | some old =>
          rw [hold] at hentry
          exact .inr ⟨event.eventId, old, hold, entry, hentry, rfl⟩
      · rw [List.mem_singleton.mp hentry]
        exact .inl rfl
    · exact .inr ⟨id, entries, hget, entry, hentry, rfl⟩
  · rintro (rfl | ⟨id, entries, hget, entry, hentry, rfl⟩)
    · exact ⟨other.eventId, _, by rw [Dict.get?_modify, if_pos rfl],
        ⟨other, active, requiresReplay⟩, by simp, rfl⟩
    · by_cases hid : id = event.eventId
      · subst hid
        exact ⟨event.eventId, entries ++ [⟨event, active, requiresReplay⟩],
          by rw [Dict.get?_modify, if_pos rfl, hget]; rfl, entry,
          List.mem_append_left _ hentry, rfl⟩
      · exact ⟨id, entries, by rw [Dict.get?_modify, if_neg hid, hget], entry, hentry, rfl⟩

theorem entered_deactivate {ledger : Ledger} {target : String} {other : ChatEvent} :
    Entered (ledger.mapValues fun id entries =>
        if id = target then entries.map ({ · with active := false }) else entries) other ↔
      Entered ledger other := by
  constructor
  · rintro ⟨id, entries, hget, entry, hentry, rfl⟩
    rw [Dict.get?_mapValues, Option.map_eq_some_iff] at hget
    obtain ⟨old, hold, rfl⟩ := hget
    split at hentry
    · obtain ⟨was, hwas, rfl⟩ := List.mem_map.mp hentry
      exact ⟨id, old, hold, was, hwas, rfl⟩
    · exact ⟨id, old, hold, entry, hentry, rfl⟩
  · rintro ⟨id, entries, hget, entry, hentry, rfl⟩
    refine ⟨id, _, by rw [Dict.get?_mapValues, hget]; rfl, ?_⟩
    split
    · exact ⟨_, List.mem_map_of_mem hentry, rfl⟩
    · exact ⟨entry, hentry, rfl⟩

/-- An operation whose event is entered, after what it replaces was deactivated. -/
theorem Notes.replaced {seen : List (String × Nat × Operation)} {ledger : Ledger}
    {event : ChatEvent} (hnew : event.key ∉ seen) (target : String)
    (active requiresReplay : Bool) :
    Notes event (seen, ledger) (seen ++ [event.key],
      (ledger.mapValues fun id entries =>
        if id = target then entries.map ({ · with active := false }) else entries).modify
          event.eventId [] (· ++ [⟨event, active, requiresReplay⟩])) := by
  refine .entered hnew (entered_modify.mpr (.inl rfl)) fun other ho => ?_
  rwa [entered_modify, entered_deactivate] at ho

theorem Notes.added {seen : List (String × Nat × Operation)} {ledger : Ledger}
    {event : ChatEvent} (hnew : event.key ∉ seen) (active requiresReplay : Bool) :
    Notes event (seen, ledger) (seen ++ [event.key],
      ledger.modify event.eventId [] (· ++ [⟨event, active, requiresReplay⟩])) := by
  refine .entered hnew (entered_modify.mpr (.inl rfl)) fun other ho => ?_
  rwa [entered_modify] at ho

namespace StreamingConceptMap

def account (m : StreamingConceptMap) : List (String × Nat × Operation) × Ledger :=
  (m.seen, m.eventLedger)

theorem apply_account {h : Host} {extract : PropositionExtractor} {m m' : StreamingConceptMap}
    {event : ChatEvent} {context : List ChatEvent} {recordHistory : Bool} {p : MapPatch}
    (hm : m.apply h extract event context recordHistory = (m', .ok p)) :
    Notes event m.account m'.account := by
  have hcase := apply_outcome h extract m event context recordHistory
  rw [hm] at hcase
  cases hcase with
  | duplicate hseen => exact .duplicate hseen
  | late hnew => exact .added hnew _ _
  | stale hnew _ hadd highest hactive hle =>
    exact .outdated hnew ⟨hadd, highest, hactive, hle⟩
  | retracted hnew => exact .replaced hnew _ _ _
  | tombstoned hnew => exact .replaced hnew _ _ _
  | applied hnew _ _ _ replaces =>
    cases replaces with
    | true => exact .replaced hnew _ _ _
    | false => exact .added hnew _ _

theorem apply_raises {h : Host} {extract : PropositionExtractor} {m m' : StreamingConceptMap}
    {event : ChatEvent} {context : List ChatEvent} {recordHistory : Bool} {e : String}
    (hm : m.apply h extract event context recordHistory = (m', .error e)) :
    m' = m ∧ event.key ∉ m.seen ∧ ¬Outdated m.eventLedger event := by
  have hcase := apply_outcome h extract m event context recordHistory
  rw [hm] at hcase
  cases hcase with
  | raised hnew _ hfresh =>
    refine ⟨rfl, hnew, ?_⟩
    rintro ⟨hadd, highest, hactive, hle⟩
    exact hfresh hadd highest hactive hle

theorem apply_history {h : Host} {extract : PropositionExtractor} (m : StreamingConceptMap)
    (event : ChatEvent) (context : List ChatEvent) :
    (m.apply h extract event context false).1.history = m.history := by
  have hcase := apply_outcome h extract m event context false
  generalize m.apply h extract event context false = result at hcase
  cases hcase with
  | duplicate | raised | late | stale | retracted | tombstoned => rfl
  | applied _ _ _ _ replaces => cases replaces <;> rfl

/-- A map that calls of `apply`, merges and replays have built, none of which was a replay
that failed. -/
inductive Built (h : Host) (extract : PropositionExtractor) : StreamingConceptMap → Prop
  | fresh (allowed : Lateness) : Built h extract (.fresh allowed)
  | call {m : StreamingConceptMap} (input : ConceptInput) (hm : Built h extract m) :
    Built h extract (m.call h extract input)
  | merged {m : StreamingConceptMap} (aliases : Dict String String) (hm : Built h extract m) :
    Built h extract { m with aliases }
  | replayed {m m' : StreamingConceptMap} (events : Option (List ChatEvent))
      (hm : Built h extract m) (hr : m.replay h extract events = (m', .ok ())) :
    Built h extract m'

/-- The inputs a call of `replay` feeds back. -/
def replayed (m : StreamingConceptMap) (events : Option (List ChatEvent)) : List ConceptInput :=
  match events with
  | none => m.history
  | some events => events.map fun event => ⟨event, []⟩

/-- The inputs fed so far are accounted for, and the history waits unchanged. -/
def Feeding (history done : List ConceptInput) (m : StreamingConceptMap) : Prop :=
  Recount (done.map (·.event)) m.account ∧ m.history = history

theorem Feeding.step {h : Host} {extract : PropositionExtractor} {history : List ConceptInput}
    (done : List ConceptInput) (m m' : StreamingConceptMap) (item : ConceptInput) (p : MapPatch)
    (hm : Feeding history done m) (hr : m.redo h extract item = (m', .ok p)) :
    Feeding history (done ++ [item]) m' := by
  refine ⟨?_, ?_⟩
  · rw [List.map_append]
    exact hm.1.step (apply_account hr)
  · rw [← hm.2, ← @apply_history h extract m item.event item.context]
    exact congrArg (·.history) (congrArg Prod.fst hr).symm

/-- The reset map a replay starts from. -/
theorem Feeding.reset (m : StreamingConceptMap) (history : List ConceptInput) :
    Feeding history [] (({ m with history } : StreamingConceptMap).resetRuntime.withLateness .inf) :=
  ⟨Recount.init, rfl⟩

theorem replay_ok {h : Host} {extract : PropositionExtractor} {m m' : StreamingConceptMap}
    {events : Option (List ChatEvent)} (hr : m.replay h extract events = (m', .ok ())) :
    m'.history = m.replayed events ∧
      Recount ((m.replayed events).map (·.event)) m'.account := by
  obtain ⟨hfst, hsnd⟩ := Prod.ext_iff.mp hr
  have hfed := Journal.refeed_invariant Feeding.step (Feeding.reset m (m.replayed events))
    (Prod.ext rfl hsnd)
  rw [← show _ = m' from hfst]
  exact ⟨hfed.2, hfed.1⟩

theorem Built.recount {h : Host} {extract : PropositionExtractor} {m : StreamingConceptMap}
    (hm : Built h extract m) : Recount (m.history.map (·.event)) m.account := by
  induction hm with
  | fresh allowed => exact Recount.init
  | @call m input hm ih =>
    rcases @apply_recorded h extract m input.event input.context with heq | ⟨hhist, p, hp⟩
    · unfold StreamingConceptMap.call
      rw [heq]
      exact ih
    · unfold StreamingConceptMap.call
      rw [hhist, List.map_append]
      exact ih.step (apply_account (Prod.ext rfl hp))
  | merged aliases hm ih => exact ih
  | replayed events hm hr ih =>
    obtain ⟨hhist, hrecount⟩ := replay_ok hr
    rw [hhist]
    exact hrecount

/-- A replay that raises leaves another history or another ledger than it found. -/
theorem replay_error_changes {h : Host} {extract : PropositionExtractor}
    {m m' : StreamingConceptMap} {events : Option (List ChatEvent)} {e : String}
    (hm : Built h extract m) (hr : m.replay h extract events = (m', .error e)) :
    m'.history ≠ m.history ∨ m'.eventLedger ≠ m.eventLedger := by
  obtain ⟨hfst, hsnd⟩ := Prod.ext_iff.mp hr
  obtain ⟨before, item, after, u, hsplit, hfed, hraise⟩ := Journal.refeed_error (Prod.ext rfl hsnd)
  obtain ⟨hsame, hnew, hfresh⟩ := apply_raises hraise
  have hu := Journal.refeed_invariant Feeding.step (Feeding.reset m (m.replayed events)) hfed
  rw [← show _ = m' from hfst]
  by_cases hhist : m.history = m.replayed events
  · right
    have hall := hm.recount
    rw [hhist, show m.replayed events = before ++ item :: after from hsplit, List.map_append,
      List.map_cons] at hall
    have hdiff := hall.differs hu.1 hnew hfresh
    intro heq
    apply hdiff
    rw [← hsame]
    exact heq
  · left
    intro heq
    apply hhist
    rw [← heq, ← hu.2, ← hsame]
    rfl

/-- The parts of the map a caller would look at. -/
structure Unchanged (m m' : StreamingConceptMap) : Prop where
  history : m'.history = m.history
  eventLedger : m'.eventLedger = m.eventLedger
  contributions : m'.contributions = m.contributions
  watermark : m'.watermark = m.watermark
  allowedLateness : m'.allowedLateness = m.allowedLateness

end StreamingConceptMap

namespace StreamingInteractionNetwork

def account (n : StreamingInteractionNetwork) : List (String × Nat × Operation) × Ledger :=
  (n.seen, n.eventLedger)

theorem stale_iff {n : StreamingInteractionNetwork} {event : ChatEvent} :
    n.stale event = true ↔ Outdated n.eventLedger event := by
  have hhigh : n.highestActive event.eventId =
      (activeRevisions n.eventLedger event.eventId).max? := rfl
  unfold stale Outdated
  rw [← hhigh, Bool.and_eq_true, decide_eq_true_eq]
  refine and_congr_right fun _ => ?_
  cases n.highestActive event.eventId with
  | none => simp
  | some highest => simp

theorem apply_account {h : Host} {extractor : Option RelationExtractor}
    {n n' : StreamingInteractionNetwork} {event : ChatEvent} {args : Supplied} {p : MapPatch}
    (hn : n.apply h extractor event args = (n', .ok p)) : Notes event n.account n'.account := by
  have hcase := apply_outcome h extractor n event args
  rw [hn] at hcase
  cases hcase with
  | duplicate hseen => exact .duplicate hseen
  | late hnew => exact .added hnew _ _
  | stale hnew _ hstale => exact .outdated hnew (stale_iff.mp hstale)
  | retracted hnew => exact .replaced hnew _ _ _
  | applied hnew =>
    cases hreplaces : n.replaces event with
    | true => exact .replaced hnew _ _ _
    | false => exact .added hnew _ _

theorem apply_raises {h : Host} {extractor : Option RelationExtractor}
    {n n' : StreamingInteractionNetwork} {event : ChatEvent} {args : Supplied} {e : String}
    (hn : n.apply h extractor event args = (n', .error e)) :
    n' = n ∧ event.key ∉ n.seen ∧ ¬Outdated n.eventLedger event := by
  have hcase := apply_outcome h extractor n event args
  rw [hn] at hcase
  cases hcase with
  | raised hnew _ hfresh =>
    refine ⟨rfl, hnew, fun ho => ?_⟩
    rw [← stale_iff, hfresh] at ho
    cases ho

/-- A call leaves the history as it was, or appends its event; without recording it stays. -/
theorem apply_history {h : Host} {extractor : Option RelationExtractor}
    (n : StreamingInteractionNetwork) (event : ChatEvent) (args : Supplied) :
    (n.apply h extractor event args).1 = n ∨
      ∃ r : NetworkInput, r.event = event ∧
        (n.apply h extractor event args).1.history =
          if args.recordHistory then n.history ++ [r] else n.history := by
  have hcase := apply_outcome h extractor n event args
  generalize n.apply h extractor event args = result at hcase
  cases hcase with
  | duplicate | raised => exact .inl rfl
  | late | stale | retracted => exact .inr ⟨_, rfl, rfl⟩
  | applied => cases n.replaces event <;> exact .inr ⟨_, rfl, rfl⟩

/-- A network that calls of `apply` and replays have built, none of which was a replay that
failed. -/
inductive Built (h : Host) (extractor : Option RelationExtractor) :
    StreamingInteractionNetwork → Prop
  | fresh (allowed : Lateness) : Built h extractor (.fresh allowed)
  | call {n : StreamingInteractionNetwork} (input : NetworkInput) (hn : Built h extractor n) :
    Built h extractor (n.call h extractor input)
  | replayed {n n' : StreamingInteractionNetwork} (inputs : Option (List NetworkInput))
      (hn : Built h extractor n) (hr : n.replay h extractor inputs = (n', .ok ())) :
    Built h extractor n'

/-- The inputs fed so far are accounted for, and the history waits unchanged. -/
def Feeding (history done : List NetworkInput) (n : StreamingInteractionNetwork) : Prop :=
  Recount (done.map (·.event)) n.account ∧ n.history = history

theorem Feeding.step {h : Host} {extractor : Option RelationExtractor}
    {history : List NetworkInput} (done : List NetworkInput) (n n' : StreamingInteractionNetwork)
    (item : NetworkInput) (p : MapPatch) (hn : Feeding history done n)
    (hr : n.redo h extractor item = (n', .ok p)) : Feeding history (done ++ [item]) n' := by
  refine ⟨?_, ?_⟩
  · rw [List.map_append]
    exact hn.1.step (apply_account hr)
  · have hn' : (n.apply h extractor item.event (supplied item false)).1 = n' :=
      congrArg Prod.fst hr
    rcases @apply_history h extractor n item.event (supplied item false) with
      hsame | ⟨r, -, hhist⟩
    · rw [← hn', hsame]
      exact hn.2
    · rw [← hn', hhist]
      exact hn.2

theorem Feeding.reset (n : StreamingInteractionNetwork) (history : List NetworkInput) :
    Feeding history []
      (({ n with history } : StreamingInteractionNetwork).resetRuntime.withLateness .inf) :=
  ⟨Recount.init, rfl⟩

theorem replay_ok {h : Host} {extractor : Option RelationExtractor}
    {n n' : StreamingInteractionNetwork} {inputs : Option (List NetworkInput)}
    (hr : n.replay h extractor inputs = (n', .ok ())) :
    n'.history = inputs.getD n.history ∧
      Recount ((inputs.getD n.history).map (·.event)) n'.account := by
  obtain ⟨hfst, hsnd⟩ := Prod.ext_iff.mp hr
  have hfed := Journal.refeed_invariant Feeding.step (Feeding.reset n (inputs.getD n.history))
    (Prod.ext rfl hsnd)
  rw [← show _ = n' from hfst]
  exact ⟨hfed.2, hfed.1⟩

theorem Built.recount {h : Host} {extractor : Option RelationExtractor}
    {n : StreamingInteractionNetwork} (hn : Built h extractor n) :
    Recount (n.history.map (·.event)) n.account := by
  induction hn with
  | fresh allowed => exact Recount.init
  | @call n input hn ih =>
    rcases @apply_history h extractor n input.event (supplied input true) with
      hsame | ⟨r, hr, hhist⟩
    · rw [show n.call h extractor input = n from hsame]
      exact ih
    · cases hp : (n.apply h extractor input.event (supplied input true)).2 with
      | error e =>
        have hsame : n.call h extractor input = n := (apply_raises (Prod.ext rfl hp)).1
        rw [hsame]
        exact ih
      | ok p =>
        rw [show (n.call h extractor input).history = n.history ++ [r] from hhist,
          List.map_append, List.map_cons, hr]
        exact ih.step (apply_account (Prod.ext rfl hp))
  | replayed inputs hn hr ih =>
    obtain ⟨hhist, hrecount⟩ := replay_ok hr
    rw [hhist]
    exact hrecount

/-- A replay that raises leaves another history or another ledger than it found. -/
theorem replay_error_changes {h : Host} {extractor : Option RelationExtractor}
    {n n' : StreamingInteractionNetwork} {inputs : Option (List NetworkInput)} {e : String}
    (hn : Built h extractor n) (hr : n.replay h extractor inputs = (n', .error e)) :
    n'.history ≠ n.history ∨ n'.eventLedger ≠ n.eventLedger := by
  obtain ⟨hfst, hsnd⟩ := Prod.ext_iff.mp hr
  obtain ⟨before, item, after, u, hsplit, hfed, hraise⟩ := Journal.refeed_error (Prod.ext rfl hsnd)
  obtain ⟨hsame, hnew, hfresh⟩ := apply_raises hraise
  have hu := Journal.refeed_invariant Feeding.step (Feeding.reset n (inputs.getD n.history)) hfed
  rw [← show _ = n' from hfst]
  by_cases hhist : n.history = inputs.getD n.history
  · right
    have hall := hn.recount
    rw [hhist, show inputs.getD n.history = before ++ item :: after from hsplit, List.map_append,
      List.map_cons] at hall
    have hdiff := hall.differs hu.1 hnew hfresh
    intro heq
    apply hdiff
    rw [← hsame]
    exact heq
  · left
    intro heq
    apply hhist
    refine Eq.trans heq.symm (Eq.trans ?_ hu.2)
    rw [← hsame]
    rfl

/-- The parts of the network a caller would look at. -/
structure Unchanged (n n' : StreamingInteractionNetwork) : Prop where
  history : n'.history = n.history
  eventLedger : n'.eventLedger = n.eventLedger
  contributions : n'.contributions = n.contributions
  watermark : n'.watermark = n.watermark
  allowedLateness : n'.allowedLateness = n.allowedLateness

end StreamingInteractionNetwork

/-- An extractor that finds nothing in a turn, and refuses one of them. -/
def pickyExtractor : PropositionExtractor := fun event _ =>
  if event.eventId = "e9" then .error "unreadable" else .ok []

def pickyRelations : RelationExtractor := fun event _ =>
  if event.eventId = "e9" then .error "unreadable" else .ok []

def unreadable : ChatEvent :=
  { sunRemark with
    eventId := "e9"
    required := by decide }

/-- A map and a network that hold one remark. -/
def oneRemarkMap : StreamingConceptMap :=
  (StreamingConceptMap.fresh (.within (seconds 5))).call .ascii pickyExtractor ⟨sunRemark, []⟩

def oneRemarkNetwork : StreamingInteractionNetwork :=
  (StreamingInteractionNetwork.fresh (.within (seconds 5))).call .ascii (some pickyRelations)
    ⟨sunRemark, [], [], none, true⟩

theorem failed_replay_facts :
    (oneRemarkMap.replay .ascii pickyExtractor (some [unreadable])).2 = .error "unreadable" ∧
    (oneRemarkNetwork.replay .ascii (some pickyRelations)
      (some [⟨unreadable, [], [], none, true⟩])).2 = .error "unreadable" ∧
    (oneRemarkMap.replay .ascii pickyExtractor (some [unreadable])).1.history ≠
      oneRemarkMap.history := by
  decide +kernel

end LearningOrbit.Reference
