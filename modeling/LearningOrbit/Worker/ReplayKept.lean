import LearningOrbit.Worker.ReplayRuns

/-!
# What a consume keeps of a replay

A replay admits the events that were late; the next consume rebuilds the room
behind the online gate. Both states are runs over the chat events of the same
prefix, so what is lost can be read off these events: a contribution survives
exactly when its event is still accepted in time and superseded by nothing
accepted in time.
-/

namespace LearningOrbit.Worker

open LearningOrbit (Host Dict)
open LearningOrbit.Reference

/-! ## One event under two indexes -/

theorem candidate_congr {h : Host} {a b : ChatEvent} (hid : a.eventId = b.eventId)
    (hrev : a.revision = b.revision) (htext : a.text = b.text)
    (hconf : a.sourceConfidence = b.sourceConfidence) :
    DeterministicEcosystemExtractor.candidate h a =
      DeterministicEcosystemExtractor.candidate h b := by
  funext pattern index
  unfold DeterministicEcosystemExtractor.candidate DeterministicEcosystemExtractor.evidenceId
  rw [hid, hrev, htext, hconf]

/-- What an event states depends on its identity, time and text only. -/
theorem stagedOf_congr {h : Host} {a b : ChatEvent} (hid : a.eventId = b.eventId)
    (hrev : a.revision = b.revision) (htime : a.eventTime = b.eventTime) (htext : a.text = b.text)
    (hconf : a.sourceConfidence = b.sourceConfidence) : stagedOf h a = stagedOf h b := by
  have hstage : StreamingConceptMap.stage h a = StreamingConceptMap.stage h b := by
    funext index candidate
    unfold StreamingConceptMap.stage
    rw [hid, hrev, htime, hconf]
  unfold stagedOf DeterministicEcosystemExtractor.extract StreamingConceptMap.stageAll
  rw [candidate_congr hid hrev htext hconf, hstage]

/-- Two adaptations of one event differ at most in what it replies to and replaces. -/
theorem adaptOne_congr {h : Host} {i j i' j' : MessageLineageIndex} {e : RoomEvent}
    {a b : ChatEvent} (ha : adaptOne h i e = some (a, i')) (hb : adaptOne h j e = some (b, j')) :
    a.operation = b.operation ∧ stagedOf h a = stagedOf h b := by
  have peel {index next : MessageLineageIndex} {c : ChatEvent}
      (hc : adaptOne h index e = some (c, next)) : ∃ ingest before composite,
        e.ingestTime = some ingest ∧ buildCompositeArtifact h e .empty = .ok composite ∧
        c.toChatEventFields = chatFields e (effectiveTime e ingest) ingest
          (composite.getD emptyComposite) before := by
    unfold adaptOne at hc
    obtain ⟨ingest, hi, hc⟩ := Option.bind_eq_some_iff.mp hc
    split at hc
    · cases ht : toChatEvent h index e (effectiveTime e ingest) ingest with
      | error e => rw [ht] at hc; cases hc
      | ok r =>
        rw [ht] at hc
        cases hc
        obtain ⟨before, -, ht⟩ := bind_eq_ok.mp ht
        obtain ⟨composite, hcomp, ht⟩ := bind_eq_ok.mp ht
        obtain ⟨created, hcreate, ht⟩ := bind_eq_ok.mp ht
        cases ht
        exact ⟨ingest, before, composite, hi, hcomp, ChatEvent.create_ok hcreate⟩
    · cases hc
  obtain ⟨ingest, before, composite, hi, hcomp, hfa⟩ := peel ha
  obtain ⟨ingest', before', composite', hi', hcomp', hfb⟩ := peel hb
  rw [hi] at hi'
  cases hi'
  rw [hcomp] at hcomp'
  cases hcomp'
  have field {β : Type} (f : ChatEventFields → β)
      (hf : f (chatFields e (effectiveTime e ingest) ingest (composite.getD emptyComposite) before) =
        f (chatFields e (effectiveTime e ingest) ingest (composite.getD emptyComposite) before')) :
      f a.toChatEventFields = f b.toChatEventFields := by
    rw [hfa, hfb, hf]
  exact ⟨field ChatEventFields.operation rfl, stagedOf_congr (field ChatEventFields.eventId rfl)
    (field ChatEventFields.revision rfl) (field ChatEventFields.eventTime rfl)
    (field ChatEventFields.text rfl) (field ChatEventFields.sourceConfidence rfl)⟩

/-! ## The chat events of a prefix -/

theorem chatsOf_source {h : Host} {L : RoomLedger} {o : Overlay} {c : Nat} {d : ChatEvent}
    (hd : d ∈ chatsOf h L o c) :
    ∃ e ∈ L.events, e.eventId = d.eventId ∧ e.roomSeq ≤ c ∧
      ∃ i j, adaptOne h i (effectiveEvent o e) = some (d, j) := by
  obtain ⟨f, hf, hid, hadapt⟩ := adapted_source hd
  obtain ⟨e, he, rfl⟩ := List.mem_map.mp hf
  rw [effectiveEvent_eventId] at hid
  rw [← L.canonicalEvents_eq] at he
  obtain ⟨hm, hseq⟩ := List.mem_filter.mp he
  exact ⟨e, hm, hid, by simpa using hseq, hadapt⟩

/-- A longer prefix only adds the events after the shorter one. -/
theorem chatsOf_append (h : Host) (L : RoomLedger) (o : Overlay) {k m : Nat} (hk : k ≤ m) :
    ∃ rest, chatsOf h L o m = chatsOf h L o k ++ rest ∧
      ∀ d ∈ rest, ∃ e ∈ L.events, e.eventId = d.eventId ∧ k < e.roomSeq := by
  have hsplit : L.events.take m = L.events.take k ++ (L.events.drop k).take (m - k) := by
    rw [← List.take_add, Nat.add_sub_cancel' hk]
  have happend : chatsOf h L o m = chatsOf h L o k ++
      adapted h (lineageAfter h .init (effectiveEvents o (L.events.take k)))
        (effectiveEvents o ((L.events.drop k).take (m - k))) := by
    unfold chatsOf effectiveEvents
    rw [hsplit, List.map_append, adapted_append]
  refine ⟨_, happend, fun d hd => ?_⟩
  obtain ⟨f, hf, hid, -⟩ := adapted_source hd
  obtain ⟨e, he, rfl⟩ := List.mem_map.mp hf
  have hdrop := List.mem_of_mem_take he
  refine ⟨e, List.mem_of_mem_drop hdrop, by rw [← hid, effectiveEvent_eventId], ?_⟩
  obtain ⟨i, hi, rfl⟩ := List.mem_iff_getElem.mp hdrop
  rw [List.length_drop] at hi
  rw [List.getElem_drop, L.roomSeq_getElem (by omega)]
  omega

/-! ## A replay against a consume -/

/-- What excuses a lost contribution: a later event supersedes its event, or a review taken
since suppresses it or replaces its text. -/
def Excused (h : Host) (L : RoomLedger) (o o' : Overlay) (k m : Nat) (id : String) : Prop :=
  (∃ c ∈ chatsOf h L o' m, Supersedes c id ∧
    ∃ e ∈ L.events, e.eventId = c.eventId ∧ k < e.roomSeq) ∨
  ∃ e ∈ L.events, e.eventId = id ∧ effectiveEvent o e ≠ effectiveEvent o' e

/-- Every active contribution of the first map is active in the second, or excused. -/
def KeepsContributions (m n : StreamingConceptMap) (excused : String → Prop) : Prop :=
  ∀ key x, m.contributions.get? key = some x → x.active = true →
    (∃ y, n.contributions.get? key = some y ∧ y.active = true ∧ y.eventId = x.eventId) ∨
    excused x.eventId

/-- The event opens or revises a message, states something, and nothing supersedes it. -/
structure Standing (h : Host) (chats : List ChatEvent) (d : ChatEvent) : Prop where
  mem : d ∈ chats
  speaks : LedgerView.Speaks d
  states : stagedOf h d ≠ []
  last : ∀ c ∈ chats, ¬ Supersedes c d.eventId

/-- Behind the online gate the event is still accepted, in time, and nothing accepted in time
supersedes it. -/
structure InTime (chats : List ChatEvent) (id : String) : Prop where
  accepted : ∃ d ∈ onTimeFrom (.within (seconds 5)) none chats, d.eventId = id
  last : ∀ c ∈ onTimeFrom (.within (seconds 5)) none chats, ¬ Supersedes c id

section Compare

variable {h : Host} {L : RoomLedger} {o o' : Overlay} {k m : Nat}

/-- An event of the prefix is not one of the later events. -/
theorem not_later {id : String} {e f : RoomEvent} (he : e ∈ L.events) (hf : f ∈ L.events)
    (hei : e.eventId = id) (hfi : f.eventId = id) (hle : e.roomSeq ≤ k) : ¬ k < f.roomSeq := by
  have := L.eq_of_eventId he hf (hei.trans hfi.symm)
  subst this
  omega

/-- Active behind the gate, for an event of the prefix that nothing later supersedes. -/
theorem online_active_iff (hk : k ≤ m) {d : ChatEvent} (hd : d ∈ chatsOf h L o k)
    (hx : ¬ Excused h L o o' k m d.eventId) :
    (echoRun h (.within (seconds 5)) (chatsOf h L o' m)).view.Active d.eventId ↔
      (∃ d' ∈ onTimeFrom (.within (seconds 5)) none (chatsOf h L o' k),
        d'.eventId = d.eventId ∧ LedgerView.Speaks d') ∧
      ∀ c ∈ onTimeFrom (.within (seconds 5)) none (chatsOf h L o' k),
        ¬ Supersedes c d.eventId := by
  obtain ⟨rest, happend, hlater⟩ := chatsOf_append h L o' hk
  obtain ⟨zs, hz, hzsub⟩ := onTimeFrom_append (.within (seconds 5)) none (chatsOf h L o' k) rest
  rw [← happend] at hz
  rw [echoRun_active h _ (chatsOf_follows h L o' m), hz]
  obtain ⟨e, he, hei, hle, -⟩ := chatsOf_source hd
  constructor
  · rintro ⟨⟨d', hd', hid, hs⟩, hlast⟩
    refine ⟨⟨d', ?_, hid, hs⟩, fun c hc => hlast c (List.mem_append_left _ hc)⟩
    rcases List.mem_append.mp hd' with hd' | hd'
    · exact hd'
    · obtain ⟨f, hf, hfi, hlt⟩ := hlater d' (hzsub d' hd')
      exact absurd hlt (not_later he hf hei (hfi.trans hid) hle)
  · rintro ⟨⟨d', hd', hid, hs⟩, hlast⟩
    refine ⟨⟨d', List.mem_append_left _ hd', hid, hs⟩, fun c hc hsup => ?_⟩
    rcases List.mem_append.mp hc with hc | hc
    · exact hlast c hc hsup
    · refine hx (.inl ⟨c, ?_, hsup, hlater c (hzsub c hc)⟩)
      rw [happend]
      exact List.mem_append_right _ (hzsub c hc)

/-- A consume through `m` keeps what a replay through `k` had, excuses apart, exactly when
every standing event of the prefix that is not excused is still accepted in time. -/
theorem keepsContributions_iff (hk : k ≤ m)
    (hd : StreamingConceptMap.Distinguished h (chatsOf h L o k))
    (hd' : StreamingConceptMap.Distinguished h (chatsOf h L o' m)) :
    KeepsContributions (echoRun h .inf (chatsOf h L o k))
        (echoRun h (.within (seconds 5)) (chatsOf h L o' m)) (Excused h L o o' k m) ↔
      ∀ d, Standing h (chatsOf h L o k) d → ¬ Excused h L o o' k m d.eventId →
        InTime (chatsOf h L o' k) d.eventId := by
  have hf := chatsOf_follows h L o k
  have hactive := echoRun_active h .inf hf
  simp only [onTimeFrom_inf] at hactive
  have hR := (StreamingConceptMap.Tracked.init h .inf).run hf
    (hd.mono fun x hx => by simpa using hx)
  have hS := (StreamingConceptMap.Tracked.init h (.within (seconds 5))).run
    (chatsOf_follows h L o' m) (hd'.mono fun x hx => by simpa using hx)
  change (echoRun h .inf (chatsOf h L o k)).Tracked h _ at hR
  change (echoRun h (.within (seconds 5)) (chatsOf h L o' m)).Tracked h _ at hS
  rw [List.append_nil] at hR hS
  constructor
  · intro hkeep d hstand hx
    have ha : (echoRun h .inf (chatsOf h L o k)).view.Active d.eventId :=
      (hactive _).mpr ⟨⟨d, hstand.mem, rfl, hstand.speaks⟩, hstand.last⟩
    obtain ⟨s, hs⟩ := List.exists_mem_of_ne_nil _ hstand.states
    obtain ⟨x, hxget, hxa, hxe⟩ := hR.complete d (List.mem_reverse.mpr hstand.mem) ha s hs
    rcases hkeep _ x hxget hxa with ⟨y, hyget, hya, hye⟩ | hex
    · have hact := hS.backed y (Dict.mem_values.mpr ⟨_, hyget⟩) hya
      rw [hye, hxe, online_active_iff hk hstand.mem hx] at hact
      obtain ⟨⟨d', hd', hid, -⟩, hlast⟩ := hact
      exact ⟨⟨d', hd', hid⟩, hlast⟩
    · exact absurd (hxe ▸ hex) hx
  · intro hin key x hxget hxa
    by_cases hx : Excused h L o o' k m x.eventId
    · exact .inr hx
    left
    obtain ⟨d, hdm, hxe, s, hs, hkey⟩ := hR.origin key x hxget
    rw [List.mem_reverse] at hdm
    have ha := hR.backed x (Dict.mem_values.mpr ⟨_, hxget⟩) hxa
    rw [hxe] at ha hx ⊢
    obtain ⟨⟨d₀, hd₀, hid₀, hspeaks⟩, hlast⟩ := (hactive _).mp ha
    rw [hf.eq_of_eventId hd₀ hdm hid₀] at hspeaks
    obtain ⟨⟨d', hdt, hid⟩, hlast'⟩ :=
      hin d ⟨hdm, hspeaks, List.ne_nil_of_mem hs, hlast⟩ hx
    -- both chat events come from one room event the reviews read alike
    have hd'k := onTimeFrom_subset hdt
    obtain ⟨e, he, hei, -, i, j, hadapt⟩ := chatsOf_source hdm
    obtain ⟨f, hfm, hfi, -, i', j', hadapt'⟩ := chatsOf_source hd'k
    have hef : f = e := L.eq_of_eventId hfm he (by rw [hfi, hid, hei])
    subst hef
    have hsame : effectiveEvent o f = effectiveEvent o' f := by
      by_contra hne
      exact hx (.inr ⟨f, he, hei, hne⟩)
    rw [← hsame] at hadapt'
    obtain ⟨hop, hstaged⟩ := adaptOne_congr hadapt hadapt'
    have hspeaks' : LedgerView.Speaks d' := by
      unfold LedgerView.Speaks at hspeaks ⊢
      rwa [← hop]
    have hact : (echoRun h (.within (seconds 5)) (chatsOf h L o' m)).view.Active d'.eventId := by
      rw [hid, online_active_iff hk hdm hx]
      exact ⟨⟨d', hdt, hid, hspeaks'⟩, hlast'⟩
    obtain ⟨rest, happend, -⟩ := chatsOf_append h L o' hk
    have hmem : d' ∈ (chatsOf h L o' m).reverse := by
      rw [List.mem_reverse, happend]
      exact List.mem_append_left _ hd'k
    obtain ⟨y, hyget, hya, hye⟩ := hS.complete d' hmem hact s (hstaged ▸ hs)
    exact ⟨y, hkey ▸ hyget, hya, hye.trans hid⟩

end Compare

/-! ## Runs -/

/-- A replay that installed its epoch, and a later consume that materializes in it. -/
structure Continues (h : Host) (L : StoredLedger) (r c : Execution) (p q : StreamingProjector) :
    Prop where
  replay : ∃ row, r.job = .replay row ∧
    currentOrInitialEpoch h L.roomId c.before = replayEpoch h row
  installed : r.result = .ok ()
  replayed : r.built = some p
  consume : ∃ targetSeq, c.job = .consume targetSeq
  rebuilt : c.built = some q

/-- What excuses a contribution the consume lost. -/
def Execution.Excuses (h : Host) (L : StoredLedger) (r c : Execution) : String → Prop :=
  Excused h L.toRoomLedger r.attempt.overlay c.attempt.overlay r.before.checkpoint
    (c.before.checkpoint + 1)

/-- The consume keeps the active contributions of the replay. -/
def Execution.Keeps (h : Host) (L : StoredLedger) (r c : Execution) : Prop :=
  ∀ p q, Continues h L r c p q →
    KeepsContributions p.state.echo q.state.echo (r.Excuses h L c)

/-- Every event of the replayed prefix that stands and is not excused is accepted in time by
the consume. -/
def Execution.InTime (h : Host) (L : StoredLedger) (r c : Execution) : Prop :=
  ∀ p q, Continues h L r c p q →
    ∀ d, Standing h (chatsOf h L.toRoomLedger r.attempt.overlay r.before.checkpoint) d →
      ¬ r.Excuses h L c d.eventId →
      Worker.InTime (chatsOf h L.toRoomLedger c.attempt.overlay r.before.checkpoint) d.eventId

/-- Later executions of a run start where earlier ones ended, or further. -/
theorem executions_ordered {h : Host} {L : StoredLedger} {s : Store}
    (hb : s.checkpoint ≤ L.events.length) (jobs : List (Job × Attempt)) :
    (executions h L s jobs).Pairwise fun r c => r.after.checkpoint ≤ c.before.checkpoint := by
  induction jobs generalizing s with
  | nil => exact .nil
  | cons j rest ih =>
    obtain ⟨job, attempt⟩ := j
    have hafter := ((handle_handled h attempt hb job).checkpoint hb).2
    refine .cons (fun c hc => ?_) (ih hafter)
    obtain ⟨⟨hle, -⟩, -⟩ := executions_invariant
      (P := fun t => (execute h L s job attempt).after.checkpoint ≤ t.checkpoint ∧
        t.checkpoint ≤ L.events.length)
      (fun t job' attempt' ht => by
        have hstep := (handle_handled h attempt' ht.2 job').checkpoint ht.2
        exact ⟨Nat.le_trans ht.1 hstep.1, hstep.2⟩)
      ⟨Nat.le_refl _, hafter⟩ hc
    exact hle

theorem Handled.replay_built {h : Host} {L : StoredLedger} {s : Store} {attempt : Attempt}
    {row : ReplayJob} {p : StreamingProjector} {r : Except Raised Store}
    (hx : Handled h L s attempt (.replay row) (some p) r) : Replays h L s attempt p := by
  have hdue : ¬ Due L s (.replay row) := by
    rintro ⟨hj, -⟩
    cases hj
  cases hx with
  | consumeFault hd _ => exact absurd hd hdue
  | consumed _ hd _ _ => exact absurd hd hdue
  | requested _ hd _ _ _ => exact absurd hd hdue
  | unrequested hd _ _ _ => exact absurd hd hdue
  | replayFault hp => exact hp
  | replayed hp => exact hp

theorem Handled.consume_built {h : Host} {L : StoredLedger} {s : Store} {attempt : Attempt}
    {c : Nat} {q : StreamingProjector} {r : Except Raised Store}
    (hx : Handled h L s attempt (.consume c) (some q) r) :
    q = nextProjector h L s attempt ∧ Due L s (.consume c) := by
  cases hx with
  | consumeFault hd _ => exact ⟨rfl, hd⟩
  | consumed _ hd _ _ => exact ⟨rfl, hd⟩
  | requested _ hd _ _ _ => exact ⟨rfl, hd⟩
  | unrequested hd _ _ _ => exact ⟨rfl, hd⟩

theorem chatsOf_distinguished {h : Host} {L : RoomLedger} {o : Overlay} {k : Nat}
    (hk : k ≤ L.events.length)
    (hd : StreamingConceptMap.Distinguished h (chatsOf h L o L.events.length)) :
    StreamingConceptMap.Distinguished h (chatsOf h L o k) := by
  obtain ⟨rest, happend, -⟩ := chatsOf_append h L o hk
  refine hd.mono fun x hx => ?_
  rw [happend]
  exact List.mem_append_left _ hx

theorem lateRun_distinguished : ∀ j ∈ lateRun, StreamingConceptMap.Distinguished .ascii
    (chatsOf .ascii lateRoom.toRoomLedger j.2.overlay lateRoom.events.length) := by
  have hplain : StreamingConceptMap.Distinguished .ascii
      (chatsOf .ascii lateRoom.toRoomLedger plainAttempt.overlay lateRoom.events.length) := by
    unfold StreamingConceptMap.Distinguished
    decide +kernel
  intro j hj
  simp only [lateRun, List.mem_cons, List.not_mem_nil, or_false] at hj
  rcases hj with rfl | rfl | rfl | rfl <;> exact hplain

/-- Nothing in the late room revises or withdraws, and no review was taken. -/
theorem lateRoom_not_excused (k m : Nat) (id : String) :
    ¬ Excused .ascii lateRoom.toRoomLedger plainAttempt.overlay plainAttempt.overlay k m id := by
  have hadds : ∀ e ∈ lateRoom.events, e.operation = .add := by decide
  rintro (⟨c, hc, ⟨hop, -⟩, -⟩ | ⟨e, -, -, hne⟩)
  · obtain ⟨e, he, -, -, i, j, ha⟩ := chatsOf_source hc
    obtain ⟨-, _, _, _, _, -, hf, -⟩ := adaptOne_eq_some ha
    have hsame : c.operation = e.operation := congrArg ChatEventFields.operation hf
    exact hop (hsame.trans (hadds e he))
  · exact hne rfl

end LearningOrbit.Worker
