import LearningOrbit.Media.Janitor

/-!
# Uploads in one room

Clients, finalize calls, the routes of the two media jobs, sweeps and workers act on the
media of a room. A transaction that takes the room lock waits while a finalize call holds
it; what is sent to the store arrives on its own. A step that has to wait leaves the room as
it is, so every order of steps is a run.
-/

namespace LearningOrbit.Media

open LearningOrbit (Dict)
open LearningOrbit.Jobs (Queue JobClaim)

/-- Who holds the room's lock from one step to the next. -/
inductive Holder
  | finalize (f : Finalizing)
  /-- The media-surface route, after `eraseRoomObjects` and before its commit. -/
  | surface (claim : JobClaim)

/-- How a delete ends. One that throws may have removed the object all the same. -/
inductive Erasure
  | resolves
  | throws (gone : Bool)
  deriving DecidableEq

def Erasure.gone : Erasure → Bool
  | .resolves => true
  | .throws gone => gone

/-- The media of one room. `issued` remembers every grant as its row last was: a signed URL and a
copy under way outlive the row. -/
structure World where
  roomId : String
  db : MediaDb
  objects : Dict String StoredObject
  holder : Option Holder
  copies : List Copy
  sweeps : List Sweep
  issued : String → Option UploadGrant
  now : Int

inductive FinalizeStep
  | locks (refusal : Option String) (mediaId actorId correlationId : String) (reachable : Bool)
    (clock : Int)
  | stages (reachable : Bool)
  | intends (refusal : Option String) (window : Nat) (jobId : String)
  | fences (window : Nat)
  | copies
  | checks (reachable : Bool)
  | commits (refusal : Option String) (jobId : String)
  /-- The call fails or its process dies. -/
  | stops

inductive SweepStep
  | selects (grantId : String) (stamp : Int)
  | sweeps (s : Sweep) (erasure : Erasure)
  | closes (s : Sweep) (stamp : Int)
  | erases (s : Sweep) (erasure : Erasure)
  | retires (s : Sweep) (stamp : Int)

inductive Move
  | tick (d : Nat)
  /-- A client's PUT arrives. -/
  | put (grantId : String) (object : StoredObject)
  /-- A copy arrives. -/
  | land (copy : Copy)
  | finalize (step : FinalizeStep)
  | reconcile (assertion : Assertion) (refusal : Option String) (r : ReconcileRequest)
    (reachable : Bool) (erasure : Erasure) (clock : Int) (jobId : String) (stamp : Int)
  | outcome (assertion : Assertion) (refusal : Option String) (r : OutcomeRequest)
  | sweep (step : SweepStep)
  | worker (call : Jobs.Call)

/-- The store's `stat`; it throws on an object that is not there, and on a store that is not. -/
def World.stat (w : World) (reachable : Bool) (key : String) : Option StoredObject :=
  if reachable then w.objects.get? key else none

/-- A transaction may have waited since its timestamp. -/
def World.stamp (w : World) (stamp : Int) : Int := min stamp w.now

def World.hold (w : World) (f : Finalizing) : World := { w with holder := some (.finalize f) }

def World.release (w : World) : World := { w with holder := none }

def World.setDb (w : World) (db : MediaDb) : World := { w with db }

def World.eraseObject (w : World) (key : String) (gone : Bool) : World :=
  if gone then { w with objects := w.objects.erase key } else w

/-- A PUT goes through until the fence of its grant. -/
def World.put (w : World) (grantId : String) (object : StoredObject) : World :=
  match w.issued grantId with
  | some g =>
    if w.now ≤ g.writeNotAfter then { w with objects := w.objects.set g.objectKey object } else w
  | none => w

/-- A copy goes through until the promotion fence of its grant, from the object it was sent for to
a key that is free. -/
def World.land (w : World) (copy : Copy) : World :=
  let w' := { w with copies := w.copies.erase copy }
  match (w.issued copy.grantId).bind UploadGrant.promotionWriteNotAfter,
    w.objects.get? copy.stagingKey with
  | some notAfter, some object =>
    if copy ∈ w.copies && w.now ≤ notAfter && object.etag = copy.sourceEtag
        && object.sha256 = copy.expectedSha256 && !w.objects.contains copy.destinationKey then
      { w' with objects := w.objects.set copy.destinationKey object }
    else w'
  | _, _ => w'

/-- A finalize call takes its next step. -/
def World.finalizeGoes (w : World) (f : Finalizing) (step : FinalizeStep) : World :=
  match f.stage, step with
  | .locked, .stages reachable =>
    match finalizeStages (w.stat reachable) f with
    | .ok f => w.hold f
    | .error _ => w.release
  | .staged staging, .intends refusal window jobId =>
    match finalizeIntends w.db w.roomId refusal f staging window jobId w.now with
    | .ok (db, f) => (w.setDb db).hold f
    | .error _ => w.release
  | .intended intent, .fences window =>
    match finalizeExtends w.db f intent window w.now with
    | .ok (db, f) => (w.setDb db).hold f
    | .error _ => w.release
  | .fenced intent, .copies =>
    let (copy, f) := finalizeCopies f intent
    { w.hold f with copies := copy :: w.copies }
  | .copied intent, .checks reachable =>
    match finalizeChecks (w.stat reachable) f intent with
    | .ok f => w.hold f
    | .error _ => w.release
  | .checked intent immutable, .commits refusal jobId =>
    match finalizeCommits w.db w.roomId refusal f intent immutable jobId w.now with
    | .ok (db, _) => (w.setDb db).release
    | .error _ => w.release
  | _, .stops => w.release
  | _, _ => w

def World.finalize (w : World) (step : FinalizeStep) : World :=
  match w.holder, step with
  | none, .locks refusal mediaId actorId correlationId reachable clock =>
    match finalizeLocks w.db (w.stat reachable) w.roomId refusal mediaId actorId correlationId
        clock with
    | .ok (.goes f) => w.hold f
    | _ => w
  | some (.finalize f), step => w.finalizeGoes f step
  | _, _ => w

def World.reconcile (w : World) (assertion : Assertion) (refusal : Option String)
    (r : ReconcileRequest) (reachable : Bool) (erasure : Erasure) (clock : Int) (jobId : String)
    (stamp : Int) : World :=
  if w.holder.isSome || r.claim.roomId ≠ some w.roomId then w
  else
    let w' :=
      match reconcileBegins w.db (w.stat reachable) assertion refusal r clock with
      | .ok finding => finding.sweeps.elim w fun key => w.eraseObject key erasure.gone
      | .error _ => w
    match handleReconcile w.db (w.stat reachable) assertion refusal r (erasure = .resolves) clock
        jobId (w.stamp stamp) with
    | .ok (_, db) => w'.setDb db
    | .error _ => w'

def World.outcome (w : World) (assertion : Assertion) (refusal : Option String)
    (r : OutcomeRequest) : World :=
  if w.holder.isSome || r.claim.roomId ≠ some w.roomId then w
  else
    match handleOutcome w.db assertion refusal r with
    | .ok (_, db) => w.setDb db
    | .error _ => w

/-- A sweep goes on with its candidate, or leaves it. -/
def World.advance (w : World) (s : Sweep) (next : Option SweepStage) : World :=
  { w with
    sweeps := (next.map fun stage => { s with stage }).toList ++ w.sweeps.erase s }

def World.sweep (w : World) : SweepStep → World
  | .selects grantId stamp =>
    match candidate? w.db (w.stamp stamp) grantId with
    | some c =>
      if c.roomId = w.roomId then { w with sweeps := ⟨c, .selected⟩ :: w.sweeps } else w
    | none => w
  | .sweeps s erasure =>
    if s ∈ w.sweeps && s.stage = .selected then
      (w.eraseObject s.candidate.objectKey erasure.gone).advance s
        (if erasure = .resolves then some .swept else none)
    else w
  | .closes s stamp =>
    if s ∈ w.sweeps && s.stage = .swept && w.holder.isNone then
      match sweepCloses w.db s.candidate (w.stamp stamp) with
      | .ok (db, .object key) => (w.setDb db).advance s (some (.authorised key))
      | .ok (db, _) => (w.setDb db).advance s none
      | .error _ => w.advance s none
    else w
  | .erases s erasure =>
    match s.stage with
    | .authorised key =>
      if s ∈ w.sweeps then
        (w.eraseObject key erasure.gone).advance s
          (if erasure = .resolves then some (.erased key) else none)
      else w
    | _ => w
  | .retires s stamp =>
    match s.stage with
    | .erased key =>
      if s ∈ w.sweeps && w.holder.isNone then
        match sweepRetires w.db s.candidate key (w.stamp stamp) with
        | .ok db => (w.setDb db).advance s none
        | .error _ => w.advance s none
      else w
    | _ => w

/-- What workers and a closing room do to the queue. Media jobs are inserted by the transactions
above only. -/
def World.worker (w : World) (call : Jobs.Call) : World :=
  match call with
  | .enqueue _ => w
  | call =>
    match Jobs.step w.db.queue call with
    | .ok queue => w.setDb { w.db with queue }
    | .error _ => w

def World.act (w : World) : Move → World
  | .tick d => { w with now := w.now + d }
  | .put grantId object => w.put grantId object
  | .land copy => w.land copy
  | .finalize step => w.finalize step
  | .reconcile assertion refusal r reachable erasure clock jobId stamp =>
    w.reconcile assertion refusal r reachable erasure clock jobId stamp
  | .outcome assertion refusal r => w.outcome assertion refusal r
  | .sweep step => w.sweep step
  | .worker call => w.worker call

def World.record (w : World) : World :=
  { w with issued := fun grantId => (w.db.grants.get? grantId).or (w.issued grantId) }

def World.move (w : World) (m : Move) : World := (w.act m).record

def World.run (w : World) (moves : List Move) : World := moves.foldl World.move w

end LearningOrbit.Media
