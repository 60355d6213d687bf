import Mathlib.Algebra.Order.Floor.Ring
import Mathlib.Data.Rat.Floor
import LearningOrbit.Projection.EchoSnapshot
import LearningOrbit.Worker.ReplayRuns

/-!
# Hysteresis across materializations

Every consume builds a projector of its own and takes one snapshot of it, so the
memory of what was visible begins empty each time: between two versions an edge
is held only by the threshold it needs to appear.
-/

namespace LearningOrbit.Worker

open LearningOrbit (Host Dict)
open LearningOrbit.Reference
open LearningOrbit.Projection

/-- The instant of the snapshot: the ingest time of the last event. -/
def watermarkAt (L : RoomLedger) (through : Nat) : Int :=
  ((canonicalEvents L through).getLast?.bind (·.ingestTime)).getD 0

/-- The ECHO snapshot `_materialize` takes of the projector it built. -/
def echoInternal (h : Host) (f : Floats) (L : RoomLedger) (through : Nat)
    (p : StreamingProjector) : EchoSnapshot :=
  (snapshot h f p.state.echo .init (some (watermarkAt L through))).1

/-- An edge the snapshot holds. -/
def Shown (h : Host) (f : Floats) (L : RoomLedger) (through : Nat) (p : StreamingProjector)
    (key : List String) : Prop :=
  key ∈ (echoInternal h f L through p).edges.map SnapshotEdge.key

theorem shown_iff {h : Host} {f : Floats} {L : RoomLedger} {through : Nat}
    {p : StreamingProjector} {key : List String} :
    Shown h f L through p key ↔
      THETA_ON ≤ activityAt f (watermarkAt L through) (backing p.state.echo key) := by
  unfold Shown echoInternal
  rw [mem_snapshot]
  simp [threshold, Visibility.init]

section Consecutive

variable (h : Host) (f : Floats) (L : StoredLedger) (s : Store) (a b : Attempt) (c : Nat)

/-- Two consecutive consumes, and what their projectors share of an edge shown by the first:
the contributions behind it. -/
structure Carries (p q : StreamingProjector) (key : List String) : Prop where
  consumes : ∃ t u, analyticsConsumeHandler h L s a c = (some p, .ok t) ∧
    analyticsConsumeHandler h L t b (c + 1) = (some q, .ok u)
  shown : Shown h f L.toRoomLedger c p key
  unchanged : backing q.state.echo key = backing p.state.echo key

/-- An edge shown at one version, with unchanged contributions whose activity has not fallen
below `theta_off`, is shown at the next. -/
def EdgesHeld : Prop :=
  ∀ p q key, Carries h f L s a b c p q key →
    THETA_OFF ≤ activityAt f (watermarkAt L.toRoomLedger (c + 1)) (backing q.state.echo key) →
    Shown h f L.toRoomLedger (c + 1) q key

end Consecutive

/-- Two consecutive consumes hold their edges exactly when the contributions behind no shown
edge decay into the band between the thresholds by the next watermark. -/
theorem edgesHeld_iff (h : Host) (f : Floats) (L : StoredLedger) (s : Store) (a b : Attempt)
    (c : Nat) :
    EdgesHeld h f L s a b c ↔
      ∀ p q key, Carries h f L s a b c p q key →
        ¬(THETA_OFF ≤ activityAt f (watermarkAt L.toRoomLedger (c + 1))
            (backing p.state.echo key) ∧
          activityAt f (watermarkAt L.toRoomLedger (c + 1)) (backing p.state.echo key) <
            THETA_ON) := by
  constructor
  · rintro hheld p q key hc ⟨hoff, hon⟩
    have hshown := hheld p q key hc (by rw [hc.unchanged]; exact hoff)
    rw [shown_iff, hc.unchanged] at hshown
    exact absurd hshown (not_le.mpr hon)
  · intro hband p q key hc hoff
    rw [hc.unchanged] at hoff
    rw [shown_iff, hc.unchanged]
    exact not_lt.mp fun hon => hband p q key hc ⟨hoff, hon⟩

/-- Powers of two, exact at whole exponents. -/
def wholePowers : Floats := ⟨fun x => 2 ^ ⌊x⌋, fun _ x => x⟩

def slowRoomEvents : List RoomEvent :=
  [ learnerMessage 1 "00000000-0000-4000-8000-000000000001" (seconds 200)
      "the sun provides energy to producers",
    { learnerMessage 2 "00000000-0000-4000-8000-000000000002" (seconds 2000) "hello" with
      ingestTime := some (seconds 2000) } ]

theorem slowRoomEvents_stored : ∀ e ∈ slowRoomEvents, Uuid.Stored e.eventId := by decide +kernel

theorem slowRoomEvents_correlated : ∀ e ∈ slowRoomEvents, Uuid.Stored e.correlationId := by decide +kernel

/-- A remark, and half an hour later a greeting. -/
def slowRoom : StoredLedger where
  roomId := "00000000-0000-4000-8000-000000000000"
  events := slowRoomEvents
  contiguous := by decide
  distinct := by decide
  room := by decide
  wellFormed := by
    simp only [slowRoomEvents, List.mem_cons, List.not_mem_nil, or_false, forall_eq_or_imp, forall_eq]
    exact ⟨⟨by decide, by decide, by decide, by decide, by decide, by decide⟩,
      ⟨by decide, by decide, by decide, by decide, by decide, by decide⟩⟩
  ingestParses := by decide
  eventParses := by decide
  roomUuid := learnerRoom_stored
  eventUuid := slowRoomEvents_stored
  correlationUuid := slowRoomEvents_correlated

def sunEdge : List String := ["sun", "provides energy to", "producers", "energy_flow"]

/-- The greeting finds the remark decayed to less than what an edge needs to appear. -/
theorem edge_dropped_slowRoom :
    ¬EdgesHeld .ascii wholePowers slowRoom .init plainAttempt plainAttempt 1 := by
  let p := onlineProjector .ascii slowRoom.toRoomLedger plainAttempt.overlay 1
  let q := onlineProjector .ascii slowRoom.toRoomLedger plainAttempt.overlay 2
  obtain ⟨hfirst, hsecond, hsame, hon, hoff, hband⟩ :
      (lateSource .ascii slowRoom.toRoomLedger plainAttempt.overlay 1 = none ∧
      lateSource .ascii slowRoom.toRoomLedger plainAttempt.overlay 2 = none ∧
      backing q.state.echo sunEdge = backing p.state.echo sunEdge ∧
      THETA_ON ≤ activityAt wholePowers (watermarkAt slowRoom.toRoomLedger 1)
        (backing p.state.echo sunEdge) ∧
      THETA_OFF ≤ activityAt wholePowers (watermarkAt slowRoom.toRoomLedger 2)
        (backing q.state.echo sunEdge) ∧
      ¬THETA_ON ≤ activityAt wholePowers (watermarkAt slowRoom.toRoomLedger 2)
        (backing q.state.echo sunEdge)) := by decide +kernel
  have hconsume : ∀ (s : Store) (c : Nat), c = s.checkpoint + 1 → c ≤ 2 →
      lateSource .ascii slowRoom.toRoomLedger plainAttempt.overlay c = none →
      analyticsConsumeHandler .ascii slowRoom s plainAttempt c =
        (some (onlineProjector .ascii slowRoom.toRoomLedger plainAttempt.overlay c),
          .ok (s.advanced (currentOrInitialEpoch .ascii slowRoom.roomId s) c)) := by
    intro s c hc hle hlate
    rw [analyticsConsumeHandler_next .ascii slowRoom s plainAttempt hc hle,
      materialize_online .ascii slowRoom s plainAttempt _ (by omega) hle, hlate]
    rfl
  intro hheld
  have hshown := hheld p q sunEdge
    ⟨⟨_, _, hconsume .init 1 rfl (by omega) hfirst, hconsume _ 2 rfl (by omega) hsecond⟩,
      shown_iff.mpr hon, hsame⟩ hoff
  exact hband (shown_iff.mp hshown)

end LearningOrbit.Worker
