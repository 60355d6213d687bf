import LearningOrbit.Reference.Replay
import LearningOrbit.Worker.Lockstep

/-!
# Three watermarks, one clock

The projector and the two reducers each keep a watermark. Only server-clamped
times reach them, so none runs ahead of the ingest times, and the reducers lag
behind the largest event time the projector has seen.
-/

namespace LearningOrbit.Reference

open LearningOrbit (Host Dict)

/-- A reducer's watermark after one operation. -/
def Moved (eventTime : Int) (before after : Option Int) : Prop :=
  after = before ∨ after = raiseWatermark before eventTime

theorem StreamingConceptMap.apply_watermark (h : Host) (extract : PropositionExtractor)
    (m : StreamingConceptMap) (event : ChatEvent) (context : List ChatEvent)
    (recordHistory : Bool) :
    Moved event.eventTime m.watermark
      (m.apply h extract event context recordHistory).1.watermark := by
  have haccepted : ∀ d, Moved event.eventTime m.watermark
      (m.applyAccepted h extract event context recordHistory d).1.watermark := by
    intro d
    unfold applyAccepted
    split
    · exact .inr rfl
    split
    · exact .inr rfl
    split
    · exact .inl rfl
    · cases d <;> exact .inr rfl
  unfold StreamingConceptMap.apply
  split
  · exact .inl rfl
  split
  · exact .inl rfl
  split
  · split
    · split
      · exact .inr rfl
      · exact haccepted true
    · exact haccepted false
  · exact haccepted true

theorem StreamingInteractionNetwork.apply_watermark (h : Host)
    (extractor : Option RelationExtractor) (n : StreamingInteractionNetwork) (event : ChatEvent)
    (args : Supplied) :
    Moved event.eventTime n.watermark (n.apply h extractor event args).1.watermark := by
  by_cases hseen : event.key ∈ n.seen
  · exact .inl (by simp [StreamingInteractionNetwork.apply, hseen])
  cases hlate : tooLate n.watermark n.allowedLateness event.eventTime with
  | true =>
    refine .inl ?_
    simp only [StreamingInteractionNetwork.apply, hseen, hlate, ↓reduceIte]
    rfl
  | false =>
    rw [apply_eq hseen hlate]
    split
    · exact .inr rfl
    unfold applyAccepted
    split
    · exact .inr rfl
    cases n.relations h extractor event args (n.prospective event) >>=
      normalizeEvidence event with
    | error e => exact .inl rfl
    | ok result => cases n.replaces event <;> exact .inr rfl

/-- Only the lateness gate answers with this reason. -/
theorem StreamingConceptMap.apply_late {h : Host} {extract : PropositionExtractor}
    {m : StreamingConceptMap} {event : ChatEvent} {context : List ChatEvent}
    {recordHistory : Bool} {patch : MapPatch}
    (hp : (m.apply h extract event context recordHistory).2 = .ok patch)
    (hr : patch.reason = "beyond_allowed_lateness") :
    tooLate m.watermark m.allowedLateness event.eventTime = true := by
  have haccepted : ∀ d, (m.applyAccepted h extract event context recordHistory d).2 ≠
      .ok patch := by
    intro d hd
    unfold applyAccepted at hd
    split at hd
    · cases hd
      simp [StreamingConceptMap.patch] at hr
    split at hd
    · cases hd
      simp [StreamingConceptMap.patch] at hr
    split at hd
    · cases hd
    · cases hd
      simp [StreamingConceptMap.patch] at hr
  unfold StreamingConceptMap.apply at hp
  split at hp
  · cases hp
    simp [StreamingConceptMap.patch] at hr
  split at hp
  · assumption
  split at hp
  · split at hp
    · split at hp
      · cases hp
        simp [StreamingConceptMap.patch] at hr
      · exact absurd hp (haccepted true)
    · exact absurd hp (haccepted false)
  · exact absurd hp (haccepted true)

theorem StreamingInteractionNetwork.apply_late {h : Host} {extractor : Option RelationExtractor}
    {n : StreamingInteractionNetwork} {event : ChatEvent} {args : Supplied} {patch : MapPatch}
    (hp : (n.apply h extractor event args).2 = .ok patch)
    (hr : patch.reason = "beyond_allowed_lateness") :
    tooLate n.watermark n.allowedLateness event.eventTime = true := by
  cases hlate : tooLate n.watermark n.allowedLateness event.eventTime with
  | true => rfl
  | false =>
    exfalso
    by_cases hseen : event.key ∈ n.seen
    · simp only [StreamingInteractionNetwork.apply, hseen, ↓reduceIte] at hp
      cases hp
      simp [StreamingInteractionNetwork.patch] at hr
    rw [apply_eq hseen hlate] at hp
    split at hp
    · cases hp
      simp [StreamingInteractionNetwork.patch] at hr
    unfold applyAccepted at hp
    split at hp
    · cases hp
      simp [StreamingInteractionNetwork.patch] at hr
    split at hp
    · cases hp
    · cases hp
      simp [StreamingInteractionNetwork.patch] at hr

end LearningOrbit.Reference

namespace LearningOrbit.Worker

open LearningOrbit (Host Dict)
open LearningOrbit.Reference

def Rises (before after : Option Int) : Prop :=
  ∀ t, before = some t → ∃ t', after = some t' ∧ t ≤ t'

theorem Rises.refl (w : Option Int) : Rises w w := fun t ht => ⟨t, ht, le_refl t⟩

theorem Rises.trans {a b c : Option Int} (hab : Rises a b) (hbc : Rises b c) : Rises a c := by
  intro t ht
  obtain ⟨u, hu, htu⟩ := hab t ht
  obtain ⟨v, hv, huv⟩ := hbc u hu
  exact ⟨v, hv, htu.trans huv⟩

theorem Moved.rises {t : Int} {w w' : Option Int} (hm : Moved t w w') : Rises w w' := by
  rcases hm with rfl | rfl
  · exact .refl _
  · intro u hu
    cases hu
    unfold raiseWatermark
    dsimp only
    split
    · exact ⟨t, rfl, by omega⟩
    · exact ⟨u, rfl, le_refl u⟩

/-- A watermark that moves stays under every bound on the old one and on the event time. -/
theorem Moved.le {t m : Int} {w w' : Option Int} (hm : Moved t w w') (ht : t ≤ m)
    (hw : ∀ u, w = some u → u ≤ m) : ∀ u, w' = some u → u ≤ m := by
  rcases hm with rfl | rfl
  · exact hw
  · intro u hu
    cases w with
    | none => cases hu; exact ht
    | some v =>
      simp only [raiseWatermark] at hu
      split at hu
      · cases hu; exact ht
      · cases hu; exact hw u rfl

/-- No watermark and no largest event time goes back. -/
structure Advances (p q : Projection) : Prop where
  maxSeen : Rises p.maxSeenEventTime q.maxSeenEventTime
  watermark : Rises p.watermarkEventTime q.watermarkEventTime
  echo : Rises p.echo.watermark q.echo.watermark
  trace : Rises p.trace.watermark q.trace.watermark

theorem Advances.trans {p q r : Projection} (hpq : Advances p q) (hqr : Advances q r) :
    Advances p r :=
  ⟨hpq.maxSeen.trans hqr.maxSeen, hpq.watermark.trans hqr.watermark, hpq.echo.trans hqr.echo,
    hpq.trace.trans hqr.trace⟩

theorem Advances.observe (p : Projection) (event : RoomEvent) (ingest : Int) :
    Advances p (p.observe (p.decide event ingest)) := by
  refine ⟨fun t ht => ?_, fun t ht => ?_, .refl _, .refl _⟩
  · exact ⟨_, rfl, by simp [Projection.decide, advanceWatermark, ht]⟩
  · exact ⟨_, rfl, by simp [Projection.decide, advanceWatermark, ht]⟩

/-! ## One step -/

/-- What the reducers may do with an event of this time: move their watermarks, nothing else
the clocks read. -/
structure Reduced (eventTime : Int) (p q : Projection) : Prop where
  maxSeen : q.maxSeenEventTime = p.maxSeenEventTime
  watermark : q.watermarkEventTime = p.watermarkEventTime
  echo : Moved eventTime p.echo.watermark q.echo.watermark
  trace : Moved eventTime p.trace.watermark q.trace.watermark
  echoLateness : q.echo.allowedLateness = p.echo.allowedLateness
  traceLateness : q.trace.allowedLateness = p.trace.allowedLateness

theorem Reduced.advances {t : Int} {p q : Projection} (hr : Reduced t p q) : Advances p q where
  maxSeen := hr.maxSeen ▸ .refl _
  watermark := hr.watermark ▸ .refl _
  echo := Moved.rises hr.echo
  trace := Moved.rises hr.trace

theorem Reduced.reduce (h : Host) (late : Bool) (warnings : List String) (p : Projection)
    (chat : ChatEvent) :
    Reduced chat.eventTime p (p.reduce h false late warnings chat).1 := by
  have hecho : Moved chat.eventTime p.echo.watermark (echoApply h false p.echo chat).1.watermark :=
    StreamingConceptMap.apply_watermark ..
  have htrace : ∀ evidence, Moved chat.eventTime p.trace.watermark
      (traceApply h false p.trace chat evidence).1.watermark :=
    fun _ => StreamingInteractionNetwork.apply_watermark ..
  unfold Projection.reduce
  dsimp only
  split
  · exact ⟨rfl, rfl, hecho, .inl rfl, rfl, rfl⟩
  · exact ⟨rfl, rfl, hecho, .inl rfl, rfl, rfl⟩
  · split
    · exact ⟨rfl, rfl, hecho, htrace _, rfl, rfl⟩
    · exact ⟨rfl, rfl, hecho, htrace _, rfl, rfl⟩

/-- The times `_apply_one` moves are those of its cursor decision. -/
theorem Reduced.applyOne (h : Host) (p : Projection) {event : RoomEvent} {ingest : Int}
    (hi : event.ingestTime = some ingest) :
    Reduced (p.decide event ingest).effectiveEventTime (p.observe (p.decide event ingest))
      (p.applyOne h false event).1 := by
  unfold Projection.applyOne
  rw [hi]
  dsimp only
  split
  · split
    · exact ⟨rfl, rfl, .inl rfl, .inl rfl, rfl, rfl⟩
    · rename_i chat lineage hchat
      obtain ⟨before, composite, -, hf, -⟩ := toChatEvent_eq_ok hchat
      have ht : chat.eventTime = (p.decide event ingest).effectiveEventTime :=
        congrArg ChatEventFields.eventTime hf
      have hr := Reduced.reduce h (p.decide event ingest).tooLate
        (p.decide event ingest).warnings
        { p.observe (p.decide event ingest) with lineage } chat
      rw [ht] at hr
      exact ⟨hr.maxSeen, hr.watermark, hr.echo, hr.trace, hr.echoLateness, hr.traceLateness⟩
  · exact ⟨rfl, rfl, .inl rfl, .inl rfl, rfl, rfl⟩

/-! ## The invariant -/

/-- No later than some ingest time the server has written. -/
def Ingested (done : List RoomEvent) (t : Int) : Prop :=
  ∃ e ∈ done, ∃ ingest, e.ingestTime = some ingest ∧ t ≤ ingest

theorem Ingested.le {done : List RoomEvent} {t u : Int} (hi : Ingested done t) (hu : u ≤ t) :
    Ingested done u := by
  obtain ⟨e, he, ingest, hingest, ht⟩ := hi
  exact ⟨e, he, ingest, hingest, hu.trans ht⟩

theorem Ingested.more {done done' : List RoomEvent} {t : Int} (hi : Ingested done t)
    (hd : ∀ e ∈ done, e ∈ done') : Ingested done' t := by
  obtain ⟨e, he, hingest⟩ := hi
  exact ⟨e, hd e he, hingest⟩

/-- The clocks after the events `done`: the projector's watermark trails its largest event
time by the allowed lateness, the reducers' watermarks stay behind that time, and a server
ingest time bounds them all. -/
structure Clocked (done : List RoomEvent) (p : Projection) : Prop where
  echoLateness : p.echo.allowedLateness = .within ALLOWED_LATENESS
  traceLateness : p.trace.allowedLateness = .within ALLOWED_LATENESS
  watermark : p.watermarkEventTime = p.maxSeenEventTime.map (· - ALLOWED_LATENESS)
  echo : ∀ w, p.echo.watermark = some w → ∃ m, p.maxSeenEventTime = some m ∧ w ≤ m
  trace : ∀ w, p.trace.watermark = some w → ∃ m, p.maxSeenEventTime = some m ∧ w ≤ m
  ingested : ∀ m, p.maxSeenEventTime = some m → Ingested done m

theorem Clocked.init : Clocked [] .init where
  echoLateness := rfl
  traceLateness := rfl
  watermark := rfl
  echo _ hw := by cases hw
  trace _ hw := by cases hw
  ingested _ hm := by cases hm

section

variable {done : List RoomEvent} {p q : Projection} {event : RoomEvent} {ingest : Int}

theorem Clocked.idle (hp : Clocked done p) (requiresReplay : Bool) :
    Clocked (event :: done) { p with requiresReplay } :=
  ⟨hp.echoLateness, hp.traceLateness, hp.watermark, hp.echo, hp.trace,
    fun m hm => (hp.ingested m hm).more fun _ he => List.mem_cons_of_mem _ he⟩

theorem Clocked.observe (hp : Clocked done p) (hi : event.ingestTime = some ingest) :
    Clocked (event :: done) (p.observe (p.decide event ingest)) := by
  have hseen : ∀ m, p.maxSeenEventTime = some m →
      m ≤ (p.decide event ingest).maxSeenEventTime := by
    intro m hm
    simp [Projection.decide, advanceWatermark, hm]
  refine ⟨hp.echoLateness, hp.traceLateness, ?_, fun w hw => ?_, fun w hw => ?_, fun m hm => ?_⟩
  · have hw := hp.watermark
    cases hm : p.maxSeenEventTime with
    | none =>
      rw [hm] at hw
      simp [Projection.observe, Projection.decide, advanceWatermark, hw]
    | some m =>
      rw [hm] at hw
      simp only [Projection.observe, Projection.decide, advanceWatermark, hm, hw,
        Option.map_some, Option.getD_some, Option.some.injEq]
      omega
  · obtain ⟨m, hm, hle⟩ := hp.echo w hw
    exact ⟨_, rfl, hle.trans (hseen m hm)⟩
  · obtain ⟨m, hm, hle⟩ := hp.trace w hw
    exact ⟨_, rfl, hle.trans (hseen m hm)⟩
  · -- the new maximum is the old one or the clamped event time
    cases hm
    cases hold : p.maxSeenEventTime with
    | none =>
      refine ⟨event, List.mem_cons_self .., ingest, hi, ?_⟩
      simp [Projection.decide, advanceWatermark, hold]
    | some m =>
      rcases le_total m (min (event.eventTime.getD ingest) ingest) with hle | hle
      · refine ⟨event, List.mem_cons_self .., ingest, hi, ?_⟩
        simp only [Projection.decide, advanceWatermark, hold, Option.getD_some]
        omega
      · refine ((hp.ingested m hold).more fun _ he => List.mem_cons_of_mem _ he).le ?_
        simp only [Projection.decide, advanceWatermark, hold, Option.getD_some]
        omega

theorem Clocked.reduced {t : Int} (hp : Clocked done p) (hr : Reduced t p q)
    (ht : ∃ m, p.maxSeenEventTime = some m ∧ t ≤ m) : Clocked done q := by
  obtain ⟨m, hm, htm⟩ := ht
  have under {w w' : Option Int} (hmoved : Moved t w w')
      (hw : ∀ u, w = some u → ∃ m, p.maxSeenEventTime = some m ∧ u ≤ m) :
      ∀ u, w' = some u → ∃ m, q.maxSeenEventTime = some m ∧ u ≤ m := by
    intro u hu
    refine ⟨m, hr.maxSeen.trans hm, Moved.le hmoved htm (fun v hv => ?_) u hu⟩
    obtain ⟨m', hm', hle⟩ := hw v hv
    rw [hm] at hm'
    cases hm'
    exact hle
  refine ⟨hr.echoLateness.trans hp.echoLateness, hr.traceLateness.trans hp.traceLateness, ?_,
    under hr.echo hp.echo, under hr.trace hp.trace, ?_⟩
  · rw [hr.watermark, hr.maxSeen]
    exact hp.watermark
  · rw [hr.maxSeen]
    exact hp.ingested

theorem Clocked.applyOne (h : Host) (hp : Clocked done p) :
    Clocked (event :: done) (p.applyOne h false event).1 := by
  cases hi : event.ingestTime with
  | none =>
    unfold Projection.applyOne
    rw [hi]
    exact hp.idle p.requiresReplay
  | some ingest =>
    refine (hp.observe hi).reduced (Reduced.applyOne h p hi) ⟨_, rfl, ?_⟩
    exact le_max_right _ _

theorem Advances.applyOne (h : Host) (p : Projection) (event : RoomEvent) :
    Advances p (p.applyOne h false event).1 := by
  cases hi : event.ingestTime with
  | none =>
    unfold Projection.applyOne
    rw [hi]
    exact ⟨.refl _, .refl _, .refl _, .refl _⟩
  | some ingest =>
    exact (Advances.observe p event ingest).trans (Reduced.applyOne h p hi).advances

theorem Clocked.turns {h : Host} (hp : Clocked done p) (ht : StreamingProjector.Turns h p q event) :
    Clocked (event :: done) q ∧ Advances p q := by
  cases ht with
  | idle requiresReplay hq =>
    subst hq
    exact ⟨hp.idle requiresReplay, .refl _, .refl _, .refl _, .refl _⟩
  | applied hq =>
    subst hq
    exact ⟨hp.applyOne h, Advances.applyOne h p event⟩

/-- An event no more than the allowed lateness behind its own ingest time, when no earlier
ingest time is larger, is in time for the projector. -/
theorem Clocked.inTime (hp : Clocked done p)
    (hlast : ∀ e ∈ done, ∀ i, e.ingestTime = some i → i ≤ ingest)
    (ht : ingest - ALLOWED_LATENESS ≤ event.eventTime.getD ingest) :
    (p.decide event ingest).tooLate = false := by
  have hw := hp.watermark
  cases hm : p.maxSeenEventTime with
  | none =>
    rw [hm] at hw
    simp [Projection.decide, advanceWatermark, hw]
  | some m =>
    obtain ⟨e, he, i, hi, hmi⟩ := hp.ingested m hm
    have hle := hlast e he i hi
    rw [hm] at hw
    simp only [Projection.decide, advanceWatermark, hw, Option.map_some, ALLOWED_LATENESS,
      seconds, decide_eq_false_iff_not, Int.not_lt] at ht ⊢
    omega

/-- A reducer's watermark is no stricter than the projector's. -/
theorem Clocked.tooLate (hp : Clocked done p) {w : Option Int}
    (hw : ∀ u, w = some u → ∃ m, p.maxSeenEventTime = some m ∧ u ≤ m)
    (hl : Reference.tooLate w (.within ALLOWED_LATENESS)
      (p.decide event ingest).effectiveEventTime = true) :
    (p.decide event ingest).tooLate = true := by
  cases w with
  | none => cases hl
  | some u =>
    obtain ⟨m, hm, hum⟩ := hw u rfl
    have hwm := hp.watermark
    rw [hm] at hwm
    simp only [Reference.tooLate, Projection.decide, advanceWatermark, hwm, Option.map_some,
      decide_eq_true_eq] at hl ⊢
    omega

end

/-! ## A whole feed -/

/-- The chat event the reducers are given for `event`, from the state before it. -/
def Projection.Adapts (h : Host) (p : Projection) (event : RoomEvent) (ingest : Int)
    (chat : ChatEvent) : Prop :=
  ∃ lineage, toChatEvent h p.lineage event (p.decide event ingest).effectiveEventTime ingest =
    .ok (chat, lineage)

/-- The ECHO reducer refuses a chat event as late. -/
def Projection.EchoRejects (h : Host) (p : Projection) (chat : ChatEvent) : Prop :=
  ∃ patch, (echoApply h false p.echo chat).2 = .ok patch ∧
    patch.reason = "beyond_allowed_lateness"

/-- The TRACE reducer refuses a chat event as late, whatever evidence comes with it. -/
def Projection.TraceRejects (h : Host) (p : Projection) (chat : ChatEvent) : Prop :=
  ∃ evidence patch, (traceApply h false p.trace chat evidence).2 = .ok patch ∧
    patch.reason = "beyond_allowed_lateness"

/-- What the reducers refuse as late, the projector has classified as too late. -/
theorem Clocked.rejects {h : Host} {done : List RoomEvent} {p : Projection} {event : RoomEvent}
    {ingest : Int} {chat : ChatEvent} (hp : Clocked done p) (ha : p.Adapts h event ingest chat)
    (hr : p.EchoRejects h chat ∨ p.TraceRejects h chat) :
    (p.decide event ingest).tooLate = true := by
  obtain ⟨lineage, hchat⟩ := ha
  obtain ⟨before, composite, -, hf, -⟩ := toChatEvent_eq_ok hchat
  have ht : chat.eventTime = (p.decide event ingest).effectiveEventTime :=
    congrArg ChatEventFields.eventTime hf
  rcases hr with ⟨patch, hpatch, hreason⟩ | ⟨evidence, patch, hpatch, hreason⟩
  · have hlate := StreamingConceptMap.apply_late hpatch hreason
    change Reference.tooLate p.echo.watermark p.echo.allowedLateness chat.eventTime = true at hlate
    rw [hp.echoLateness, ht] at hlate
    exact hp.tooLate hp.echo hlate
  · have hlate := StreamingInteractionNetwork.apply_late hpatch hreason
    change Reference.tooLate p.trace.watermark p.trace.allowedLateness chat.eventTime = true
      at hlate
    rw [hp.traceLateness, ht] at hlate
    exact hp.tooLate hp.trace hlate

/-- Every watermark and the largest event time stay within the ingest times of `events`. -/
structure Bounded (events : List RoomEvent) (p : Projection) : Prop where
  maxSeen : ∀ t, p.maxSeenEventTime = some t → Ingested events t
  watermark : ∀ t, p.watermarkEventTime = some t → Ingested events t
  echo : ∀ t, p.echo.watermark = some t → Ingested events t
  trace : ∀ t, p.trace.watermark = some t → Ingested events t

theorem Clocked.bounded {done events : List RoomEvent} {p : Projection} (hp : Clocked done p)
    (hd : ∀ e ∈ done, e ∈ events) : Bounded events p := by
  have under : ∀ m t, p.maxSeenEventTime = some m → t ≤ m → Ingested events t :=
    fun m t hm hle => ((hp.ingested m hm).more hd).le hle
  refine ⟨fun t ht => under t t ht (le_refl t), fun t ht => ?_, fun t ht => ?_, fun t ht => ?_⟩
  · rw [hp.watermark] at ht
    obtain ⟨m, hm, rfl⟩ := Option.map_eq_some_iff.mp ht
    refine under m _ hm ?_
    simp only [ALLOWED_LATENESS, seconds]
    omega
  · obtain ⟨m, hm, hle⟩ := hp.echo t ht
    exact under m t hm hle
  · obtain ⟨m, hm, hle⟩ := hp.trace t ht
    exact under m t hm hle

namespace StreamingProjector

/-- Room events in sequence order whose ingest times never go back; their event times are
whatever the clients sent. -/
structure Ingest (events : List RoomEvent) : Prop where
  order : events.Pairwise fun a b => a.roomSeq ≤ b.roomSeq
  ingest : events.Pairwise fun a b =>
    ∀ i j, a.ingestTime = some i → b.ingestTime = some j → i ≤ j

theorem Ingest.clocked (h : Host) (roomId : String) {events : List RoomEvent}
    (hi : Ingest events) :
    Buffered events.reverse ((init roomId).run h events) ∧
      Clocked events.reverse ((init roomId).run h events).state := by
  induction events using List.reverseRecOn with
  | nil =>
    refine ⟨fun k e hk => ?_, Clocked.init⟩
    cases hk
  | append_singleton events event ih =>
    have hearlier : Ingest events :=
      ⟨(List.pairwise_append.mp hi.order).1, (List.pairwise_append.mp hi.ingest).1⟩
    obtain ⟨hbuffered, hclocked⟩ := ih hearlier
    have hbehind : ∀ e ∈ events.reverse, e.roomSeq ≤ event.roomSeq := fun e he =>
      (List.pairwise_append.mp hi.order).2.2 e (by simpa using he) event (by simp)
    obtain ⟨hbuffered', hturns⟩ := hbuffered.consume h hbehind
    have hclocked' := (hclocked.turns hturns).1
    simpa [run, List.foldl_append] using And.intro hbuffered' hclocked'

/-- A turn with a client clock a day ahead, and five seconds later one whose clock runs as
far behind as the allowance. -/
def skewedTurn (seq : Nat) (eventTime ingestTime : Int) : RoomEvent :=
  { eventId := "e" ++ toString seq, roomId := "room", roomSeq := seq, type := .messageAdded
    operation := .add, actorId := "amy", actorKind := .human, actorRole := some .student
    revision := 1, eventTime := some eventTime, ingestTime := some ingestTime
    correlationId := "c1"
    payload := ⟨some ("m" ++ toString seq), "the sun provides energy to producers", none, [], []⟩ }

end StreamingProjector

end LearningOrbit.Worker
