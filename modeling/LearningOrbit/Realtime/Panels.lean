import Mathlib.Algebra.Group.Int.Defs
import Mathlib.Data.List.Dedup
import LearningOrbit.Runs

/-!
# The panels of the browser

`ProjectionCoordinator` publishes the panels together once every enabled surface has reached
the same room sequence. It compares the cursor with the last one it published and nothing
else: a panel that is withdrawn while the others stand still stays on screen, and a cursor
that went back is published like any other.
-/

namespace LearningOrbit.Realtime

variable {α : Type}

inductive ProjectionSurface
  | chatLedger | concept | sna
  deriving DecidableEq

def projectionSurfaces : List ProjectionSurface := [.chatLedger, .concept, .sna]

inductive SurfaceAvailability
  | enabled | notAvailableByPolicy
  deriving DecidableEq

/-- A projection that is staged; a value that is null is `none`. -/
structure StagedProjection (α : Type) where
  projectionVersion : Nat
  completeThroughRoomSeq : Nat
  value : Option α
  deriving DecidableEq

/-- A projection as it arrives. Its numbers are any numbers; `none` is one that is no integer. -/
structure Arrival (α : Type) where
  projectionVersion : Option Int
  completeThroughRoomSeq : Option Int
  value : Option α

/-- `Number.isSafeInteger` and not negative. -/
def position? : Option Int → Option Nat
  | some n => if 0 ≤ n ∧ n ≤ 2 ^ 53 - 1 then some n.toNat else none
  | none => none

structure CoherentBatch (α : Type) where
  completeThroughRoomSeq : Nat
  projectionVersions : ProjectionSurface → Option Nat
  unavailableByPolicy : List ProjectionSurface
  chatLedger : Option α
  concept : Option α
  sna : Option α

def CoherentBatch.value (batch : CoherentBatch α) : ProjectionSurface → Option α
  | .chatLedger => batch.chatLedger
  | .concept => batch.concept
  | .sna => batch.sna

/-- The coordinator with the batches it has published. -/
structure ProjectionCoordinator (α : Type) where
  staged : ProjectionSurface → Option (StagedProjection α)
  availability : ProjectionSurface → SurfaceAvailability
  lastPublished : Option Nat
  published : List (CoherentBatch α)

namespace ProjectionCoordinator

def start : ProjectionCoordinator α := ⟨fun _ => none, fun _ => .enabled, none, []⟩

def withheld (c : ProjectionCoordinator α) : List ProjectionSurface :=
  projectionSurfaces.filter fun surface => c.availability surface = .notAvailableByPolicy

def coherentCursor (c : ProjectionCoordinator α) : Option Nat :=
  let enabled := projectionSurfaces.filter fun surface => c.availability surface = .enabled
  if enabled = [] then none
  else
    match enabled.mapM c.staged with
    | none => none
    | some staged =>
      match (staged.map (·.completeThroughRoomSeq)).dedup with
      | [cursor] => some cursor
      | _ => none

def batch (c : ProjectionCoordinator α) (cursor : Nat) : CoherentBatch α where
  completeThroughRoomSeq := cursor
  projectionVersions surface := (c.staged surface).map (·.projectionVersion)
  unavailableByPolicy := c.withheld
  chatLedger := (c.staged .chatLedger).bind (·.value)
  concept := (c.staged .concept).bind (·.value)
  sna := (c.staged .sna).bind (·.value)

def publishWhenCoherent (c : ProjectionCoordinator α) : ProjectionCoordinator α :=
  match c.coherentCursor with
  | none => c
  | some cursor =>
    if c.lastPublished = some cursor then c
    else { c with lastPublished := some cursor, published := c.published ++ [c.batch cursor] }

/-- A surface and its availability, before anything is published. -/
def marked (c : ProjectionCoordinator α) (surface : ProjectionSurface)
    (availability : SurfaceAvailability) : ProjectionCoordinator α :=
  { c with
    availability := fun s => if s = surface then availability else c.availability s
    staged := fun s =>
      if s = surface ∧ availability = .notAvailableByPolicy then none else c.staged s }

def setAvailability (c : ProjectionCoordinator α) (surface : ProjectionSurface)
    (availability : SurfaceAvailability) : ProjectionCoordinator α :=
  (c.marked surface availability).publishWhenCoherent

/-- The projection in its place; `none` when `stage` returns without it. -/
def placed (c : ProjectionCoordinator α) (surface : ProjectionSurface) (projection : Arrival α) :
    Option (ProjectionCoordinator α) :=
  if c.availability surface = .notAvailableByPolicy then none
  else
    match position? projection.projectionVersion, position? projection.completeThroughRoomSeq with
    | some version, some cursor =>
      some { c with
        staged := fun s =>
          if s = surface then some ⟨version, cursor, projection.value⟩ else c.staged s }
    | _, _ => none

def stage (c : ProjectionCoordinator α) (surface : ProjectionSurface) (projection : Arrival α) :
    ProjectionCoordinator α :=
  match c.placed surface projection with
  | none => c
  | some next => next.publishWhenCoherent

end ProjectionCoordinator

inductive PanelCall (α : Type)
  | stage (surface : ProjectionSurface) (projection : Arrival α)
  | setAvailability (surface : ProjectionSurface) (availability : SurfaceAvailability)

namespace ProjectionCoordinator

def call (c : ProjectionCoordinator α) : PanelCall α → ProjectionCoordinator α
  | .stage surface projection => c.stage surface projection
  | .setAvailability surface availability => c.setAvailability surface availability

/-- What the call hands to `#publishWhenCoherent`. -/
def received (c : ProjectionCoordinator α) : PanelCall α → Option (ProjectionCoordinator α)
  | .stage surface projection => c.placed surface projection
  | .setAvailability surface availability => some (c.marked surface availability)

theorem call_eq (c : ProjectionCoordinator α) (call : PanelCall α) :
    c.call call = ((c.received call).map publishWhenCoherent).getD c := by
  cases call with
  | stage surface projection =>
    simp only [ProjectionCoordinator.call, stage, received]
    cases c.placed surface projection <;> rfl
  | setAvailability surface availability => rfl

/-- The last batch is at the cursor the panels agree on, and shows nothing that is withheld. -/
def Shows (c : ProjectionCoordinator α) : Prop :=
  ∀ cursor, c.coherentCursor = some cursor → ∃ batch, c.published.getLast? = some batch ∧
    batch.completeThroughRoomSeq = cursor ∧
    (∀ surface, surface ∈ batch.unavailableByPolicy ↔
      c.availability surface = .notAvailableByPolicy) ∧
    ∀ surface, c.availability surface = .notAvailableByPolicy →
      batch.value surface = none ∧ batch.projectionVersions surface = none

/-- The cursors of the batches never go back. -/
def Forward (c : ProjectionCoordinator α) : Prop :=
  (c.published.map (·.completeThroughRoomSeq)).Pairwise (· ≤ ·)

/-- The panels do not come to agree on a cursor below the last one published, nor on that very
one when other surfaces are withheld than were then. -/
def Advances (c : ProjectionCoordinator α) (call : PanelCall α) : Prop :=
  ∀ next cursor last, c.received call = some next → next.coherentCursor = some cursor →
    c.published.getLast? = some last →
      last.completeThroughRoomSeq < cursor ∨
        last.completeThroughRoomSeq = cursor ∧
          ∀ surface, surface ∈ last.unavailableByPolicy ↔ surface ∈ next.withheld

theorem mem_withheld {c : ProjectionCoordinator α} {surface : ProjectionSurface} :
    surface ∈ c.withheld ↔ c.availability surface = .notAvailableByPolicy := by
  cases surface <;> simp [withheld, projectionSurfaces]

/-- What every coordinator keeps: nothing withheld is staged, and no batch shows what it lists
as unavailable. -/
structure Kept (c : ProjectionCoordinator α) : Prop where
  unstaged : ∀ surface, c.availability surface = .notAvailableByPolicy → c.staged surface = none
  last : c.lastPublished = c.published.getLast?.map (·.completeThroughRoomSeq)
  blank : ∀ batch ∈ c.published, ∀ surface ∈ batch.unavailableByPolicy,
    batch.value surface = none ∧ batch.projectionVersions surface = none

section

variable {c next : ProjectionCoordinator α} {panelCall : PanelCall α}

theorem Kept.start : Kept (start : ProjectionCoordinator α) where
  unstaged _ _ := rfl
  last := rfl
  blank batch hbatch := by cases hbatch

/-- Only the maps have changed, and a surface that is withheld is not staged. -/
theorem Kept.received (hc : Kept c) (hnext : c.received panelCall = some next) :
    Kept next ∧ next.published = c.published := by
  cases panelCall with
  | stage surface projection =>
    simp only [ProjectionCoordinator.received, placed] at hnext
    by_cases hheld : c.availability surface = .notAvailableByPolicy
    · rw [if_pos hheld] at hnext
      cases hnext
    · rw [if_neg hheld] at hnext
      cases hv : position? projection.projectionVersion with
      | none => simp [hv] at hnext
      | some version =>
        cases hk : position? projection.completeThroughRoomSeq with
        | none => simp [hv, hk] at hnext
        | some cursor =>
          simp only [hv, hk, Option.some.injEq] at hnext
          subst hnext
          refine ⟨⟨fun s hs => ?_, hc.last, hc.blank⟩, rfl⟩
          have hne : s ≠ surface := by
            rintro rfl
            exact hheld hs
          simpa [hne] using hc.unstaged s hs
  | setAvailability surface availability =>
    simp only [ProjectionCoordinator.received, Option.some.injEq] at hnext
    subst hnext
    refine ⟨⟨fun s hs => ?_, hc.last, hc.blank⟩, rfl⟩
    by_cases hsurface : s = surface
    · subst hsurface
      have havailability : availability = .notAvailableByPolicy := by simpa [marked] using hs
      simp [marked, havailability]
    · have hbefore : c.availability s = .notAvailableByPolicy := by
        simpa [marked, hsurface] using hs
      simpa [marked, hsurface] using hc.unstaged s hbefore

theorem batch_blank (hc : Kept c) (cursor : Nat) {surface : ProjectionSurface}
    (hs : c.availability surface = .notAvailableByPolicy) :
    (c.batch cursor).value surface = none ∧
      (c.batch cursor).projectionVersions surface = none := by
  have hnone := hc.unstaged surface hs
  cases surface <;> simp [batch, CoherentBatch.value, hnone]

theorem Kept.publish (hc : Kept c) : Kept c.publishWhenCoherent := by
  unfold publishWhenCoherent
  cases hcursor : c.coherentCursor with
  | none => exact hc
  | some cursor =>
    by_cases hlast : c.lastPublished = some cursor
    · simpa only [hlast, ↓reduceIte] using hc
    · simp only [hlast, ↓reduceIte]
      refine ⟨hc.unstaged, by simp [batch], fun b hb surface hs => ?_⟩
      rcases List.mem_append.mp hb with hb | hb
      · exact hc.blank b hb surface hs
      · rw [List.mem_singleton.mp hb] at hs ⊢
        exact batch_blank hc cursor (mem_withheld.mp hs)

theorem Kept.call (hc : Kept c) (panelCall : PanelCall α) : Kept (c.call panelCall) := by
  rw [call_eq]
  cases hr : c.received panelCall with
  | none => exact hc
  | some next => exact (hc.received hr).1.publish

theorem forward_last {batches : List (CoherentBatch α)} {last : CoherentBatch α}
    (h : (batches.map (·.completeThroughRoomSeq)).Pairwise (· ≤ ·))
    (hlast : batches.getLast? = some last) {batch : CoherentBatch α} (hb : batch ∈ batches) :
    batch.completeThroughRoomSeq ≤ last.completeThroughRoomSeq := by
  obtain ⟨before, rfl⟩ := List.getLast?_eq_some_iff.mp hlast
  rcases List.mem_append.mp hb with hb | hb
  · rw [List.map_append, List.pairwise_append] at h
    exact h.2.2 _ (List.mem_map_of_mem hb) _ (by simp)
  · exact Nat.le_of_eq (congrArg (·.completeThroughRoomSeq) (List.mem_singleton.mp hb))

/-- The panels agree, and the batch goes out. -/
theorem good_published (hnext : Kept next) (hforward : Forward next) {cursor : Nat}
    (hcursor : next.coherentCursor = some cursor) (hnew : next.lastPublished ≠ some cursor) :
    (Shows next.publishWhenCoherent ∧ Forward next.publishWhenCoherent) ↔
      ∀ last, next.published.getLast? = some last → last.completeThroughRoomSeq < cursor := by
  have hpublish : next.publishWhenCoherent = { next with
      lastPublished := some cursor, published := next.published ++ [next.batch cursor] } := by
    simp only [publishWhenCoherent, hcursor, hnew, ↓reduceIte]
  have hshows : Shows next.publishWhenCoherent := by
    rw [hpublish]
    intro k hk
    have hk : cursor = k := by
      have hsame : next.coherentCursor = some k := hk
      rw [hcursor] at hsame
      exact Option.some.inj hsame
    subst hk
    exact ⟨next.batch cursor, by simp, rfl, fun surface => mem_withheld,
      fun surface hs => batch_blank hnext cursor hs⟩
  rw [and_iff_right hshows, hpublish, Forward, List.map_append, List.pairwise_append]
  constructor
  · rintro ⟨-, -, hle⟩ last hlast
    have hbound : last.completeThroughRoomSeq ≤ cursor :=
      hle _ (List.mem_map_of_mem (List.mem_of_getLast? hlast)) _ (by simp [batch])
    have hne : last.completeThroughRoomSeq ≠ cursor := by
      rintro rfl
      exact hnew (by rw [hnext.last, hlast]; rfl)
    omega
  · intro hlt
    refine ⟨hforward, by simp, fun k hk cursor' hcursor' => ?_⟩
    obtain ⟨b, hb, rfl⟩ := List.mem_map.mp hk
    have hcursor' : cursor' = cursor := by simpa [batch] using hcursor'
    subst hcursor'
    cases hlast : next.published.getLast? with
    | none =>
      rw [List.getLast?_eq_none_iff.mp hlast] at hb
      cases hb
    | some last =>
      have hle := forward_last hforward hlast hb
      have := hlt last hlast
      omega

/-- The panels agree on the cursor that was published last. -/
theorem shows_unpublished (hnext : Kept next) {last : CoherentBatch α}
    (hlast : next.published.getLast? = some last)
    (hcursor : next.coherentCursor = some last.completeThroughRoomSeq) :
    Shows next ↔ ∀ surface, surface ∈ last.unavailableByPolicy ↔ surface ∈ next.withheld := by
  simp only [mem_withheld]
  constructor
  · intro hshows
    obtain ⟨b, hb, -, hheld, -⟩ := hshows _ hcursor
    rw [hlast] at hb
    cases hb
    exact hheld
  · intro hheld cursor hk
    rw [hcursor] at hk
    cases hk
    exact ⟨last, hlast, rfl, hheld, fun surface hs =>
      hnext.blank last (List.mem_of_getLast? hlast) surface ((hheld surface).mpr hs)⟩

theorem call_good_iff (hc : Kept c) (hgood : Shows c ∧ Forward c) (panelCall : PanelCall α) :
    (Shows (c.call panelCall) ∧ Forward (c.call panelCall)) ↔ Advances c panelCall := by
  rw [call_eq]
  cases hr : c.received panelCall with
  | none =>
    refine iff_of_true hgood fun next cursor last hnext => ?_
    rw [hr] at hnext
    cases hnext
  | some next =>
    obtain ⟨hnext, hpublished⟩ := hc.received hr
    have hforward : Forward next := by
      unfold Forward
      rw [hpublished]
      exact hgood.2
    have hadvances : Advances c panelCall ↔ ∀ cursor last, next.coherentCursor = some cursor →
        next.published.getLast? = some last →
          last.completeThroughRoomSeq < cursor ∨
            last.completeThroughRoomSeq = cursor ∧
              ∀ surface, surface ∈ last.unavailableByPolicy ↔ surface ∈ next.withheld := by
      unfold Advances
      rw [hpublished, hr]
      constructor
      · intro h cursor last
        exact h next cursor last rfl
      · intro h next' cursor last hnext'
        cases hnext'
        exact h cursor last
    rw [hadvances]
    simp only [Option.map_some, Option.getD_some]
    cases hcursor : next.coherentCursor with
    | none =>
      refine iff_of_true ?_ (by simp)
      simp only [publishWhenCoherent, hcursor]
      refine ⟨fun cursor hk => ?_, hforward⟩
      rw [hcursor] at hk
      cases hk
    | some cursor =>
      by_cases hsame : next.lastPublished = some cursor
      · obtain ⟨last, hlast, rfl⟩ : ∃ last, next.published.getLast? = some last ∧
            last.completeThroughRoomSeq = cursor := by
          rw [hnext.last, Option.map_eq_some_iff] at hsame
          exact hsame
        simp only [publishWhenCoherent, hcursor, hsame, ↓reduceIte, hforward, and_true]
        rw [shows_unpublished hnext hlast hcursor]
        simp [hlast]
      · rw [good_published hnext hforward hcursor hsame]
        constructor
        · intro hlt cursor' last hk hlast
          cases hk
          exact .inl (hlt last hlast)
        · intro hadv last hlast
          rcases hadv cursor last rfl hlast with hlt | ⟨heq, -⟩
          · exact hlt
          · exact absurd (by rw [hnext.last, hlast, ← heq]; rfl) hsame

end

/-- The panels on screen are those that may be shown, and never go back, in every state of a run
exactly if no call brings the panels to a cursor that has been passed, or to the one on screen
under other policies. -/
theorem panels_iff (calls : List (PanelCall α)) :
    (∀ n, Shows ((calls.take n).foldl call start) ∧ Forward ((calls.take n).foldl call start)) ↔
      Along call Advances (start : ProjectionCoordinator α) calls := by
  apply Along.always_iff (I := Kept) (G := fun c => Shows c ∧ Forward c)
  · exact fun c panelCall _ hc => hc.call panelCall
  · exact fun c panelCall _ hc hgood => call_good_iff hc hgood panelCall
  · exact Kept.start
  · refine ⟨fun cursor hk => ?_, List.Pairwise.nil⟩
    cases hk

/-- A panel of the given surface that has come as far as the room's fifth event. -/
def atFive (surface : ProjectionSurface) : PanelCall Nat :=
  .stage surface ⟨some 1, some 5, some 0⟩

/-- A concept map that is withdrawn stays on screen while the room is quiet. -/
theorem withdrawn_panel_stays :
    ¬Shows ([atFive .chatLedger, atFive .concept, atFive .sna,
      .setAvailability .concept .notAvailableByPolicy].foldl call start) := by
  intro hshows
  obtain ⟨batch, hbatch, -, -, hblank⟩ := hshows 5 (by decide)
  have hvalue := (hblank .concept (by decide)).1
  rw [show batch = _ from (Option.some.inj hbatch).symm] at hvalue
  revert hvalue
  decide

end ProjectionCoordinator

end LearningOrbit.Realtime
