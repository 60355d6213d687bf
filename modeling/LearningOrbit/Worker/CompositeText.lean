import Mathlib.Data.Rat.Lemmas
import Mathlib.Algebra.Order.Ring.Rat
import LearningOrbit.Raise
import LearningOrbit.Spans
import LearningOrbit.Worker.RoomEvent

/-!
# What a composite says about its parts

The spans of a composite cut its parts out again, each with the event it comes from. Its confidence
is asked for by event ids, in a map that files artifacts under media ids.
-/

namespace LearningOrbit.Worker

open LearningOrbit (Host Dict)
open LearningOrbit.Reference

/-- A part of a composite, with the confidence in its text. -/
structure IncludedArtifact where
  item : CompositeItem
  confidence : ℚ

def ofArtifact (artifact : DerivedTextArtifact) : IncludedArtifact :=
  ⟨⟨artifact.text, artifact.eventId, artifact.sourceModality⟩, artifact.sourceConfidenceRaw⟩

/-- The direct text of the event, then the active artifacts of its media. -/
def included (h : Host) (event : RoomEvent) (active : Dict String DerivedTextArtifact) :
    Except String (List IncludedArtifact) := do
  let direct ← maybeDeriveDirectText h event
  let own := direct.toList.map fun d => IncludedArtifact.mk ⟨d.text, d.eventId, .text⟩ 1
  let media := event.payload.mediaIds.filterMap fun mediaId =>
    (active.get? mediaId).filter (·.active)
  return own ++ media.map ofArtifact

/-- `text[start:stop]`. -/
def slice (text : String) (start stop : Nat) : String :=
  String.ofList ((text.toList.drop start).take (stop - start))

/-- The offsets are the spans of the parts, from the first character to the last with one newline
between two, and name their events. -/
structure KeepsOffsets (composite : Composite) (parts : List IncludedArtifact) : Prop where
  length : composite.offsets.length = parts.length
  part : ∀ (i : Nat) (offset : Offset) (x : IncludedArtifact),
    composite.offsets[i]? = some offset → parts[i]? = some x →
    slice composite.text offset.start offset.stop = x.item.text ∧
      offset.eventId = x.item.eventId ∧ offset.modality = x.item.modality
  start : ∀ offset : Offset, composite.offsets[0]? = some offset → offset.start = 0
  adjacent : ∀ (i : Nat) (offset next : Offset), composite.offsets[i]? = some offset →
    composite.offsets[i + 1]? = some next →
      next.start = offset.stop + 1 ∧ composite.text.toList[offset.stop]? = some '\n'
  stop : ∀ offset : Offset, composite.offsets.getLast? = some offset →
    offset.stop = composite.text.length

/-- The least of the parts' confidences. -/
def LeastConfidence (parts : List IncludedArtifact) (c : ℚ) : Prop :=
  (∃ x ∈ parts, x.confidence = c) ∧ ∀ x ∈ parts, c ≤ x.confidence

/-- The confidence filed under the event of a part. -/
def filedConfidence (active : Dict String DerivedTextArtifact) (x : IncludedArtifact) : Option ℚ :=
  (active.get? x.item.eventId).map (·.sourceConfidenceRaw)

/-- Some part has the least confidence of all, none is filed under the event of a part that is
less, and unless it is one it is filed there itself. -/
def ConfidenceFiled (active : Dict String DerivedTextArtifact) (parts : List IncludedArtifact) : Prop :=
  ∃ x ∈ parts, (∀ y ∈ parts, x.confidence ≤ y.confidence) ∧ x.confidence ≤ 1 ∧
    (∀ y ∈ parts, ∀ c, filedConfidence active y = some c → x.confidence ≤ c) ∧
    (x.confidence = 1 ∨ ∃ y ∈ parts, filedConfidence active y = some x.confidence)

/-! ## Offsets -/

theorem join_toList (texts : List String) :
    (Text.join "\n" texts).toList = Spans.joined '\n' (texts.map String.toList) := by
  have hfold : ∀ (a : String) (l : List String),
      (l.foldl (fun acc b => acc ++ "\n" ++ b) a).toList =
        a.toList ++ (l.map String.toList).flatMap ('\n' :: ·) := by
    intro a l
    induction l generalizing a with
    | nil => simp
    | cons b l ih =>
      rw [List.foldl_cons, ih, List.map_cons, List.flatMap_cons, String.toList_append,
        String.toList_append]
      simp
  cases texts with
  | nil => rfl
  | cons a l => exact hfold a l

/-- The offsets of items are the spans of their texts. -/
theorem offsetsFrom_spans (items : List CompositeItem) (cursor : Nat) :
    (offsetsFrom cursor items).map (fun o => (o.start, o.stop)) =
      Spans.spans cursor (items.map (·.text.toList)) := by
  induction items generalizing cursor with
  | nil => rfl
  | cons item items ih =>
    simp only [offsetsFrom, List.map_cons, Spans.spans, ih, String.length_toList]

theorem offsetsFrom_items (items : List CompositeItem) (cursor : Nat) :
    (offsetsFrom cursor items).map (fun o => (o.eventId, o.modality)) =
      items.map fun item => (item.eventId, item.modality) := by
  induction items generalizing cursor with
  | nil => rfl
  | cons item items ih => simp only [offsetsFrom, List.map_cons, ih]

theorem compositeOf_offsets {active : Dict String DerivedTextArtifact} {parts : List IncludedArtifact}
    {composite : Composite} (h : compositeOf active (parts.map (·.item)) = some composite) :
    KeepsOffsets composite parts := by
  unfold compositeOf at h
  split at h
  · cases h
  cases h
  have hspans := offsetsFrom_spans (parts.map (·.item)) 0
  have hitems := offsetsFrom_items (parts.map (·.item)) 0
  have htext : (Text.join "\n" ((parts.map (·.item)).map (·.text))).toList =
      Spans.joined '\n' ((parts.map (·.item)).map (·.text.toList)) := by
    rw [join_toList, List.map_map]
    rfl
  have hspan : ∀ {i : Nat} {offset : Offset}, (offsetsFrom 0 (parts.map (·.item)))[i]? = some offset →
      (Spans.spans 0 ((parts.map (·.item)).map (·.text.toList)))[i]? =
        some (offset.start, offset.stop) := by
    intro i offset ho
    rw [← hspans, List.getElem?_map, ho]
    rfl
  refine ⟨?_, ?_, ?_, ?_, ?_⟩
  · have hlength := congrArg List.length hspans
    simpa [Spans.length_spans] using hlength
  · intro i offset x ho hx
    refine ⟨?_, ?_⟩
    · unfold slice
      have hpart : ((parts.map (·.item)).map (·.text.toList))[i]? = some x.item.text.toList := by
        rw [List.getElem?_map, List.getElem?_map, hx]
        rfl
      have hcut := @Spans.slice_spans _ '\n' _ [] _ _ _ (hspan ho) hpart
      rw [htext, ← String.ofList_toList (s := x.item.text), ← hcut]
      rfl
    · have hi := congrArg (·[i]?) hitems
      simp only [List.getElem?_map, ho, hx, Option.map_some, Option.some.injEq,
        Prod.mk.injEq] at hi
      exact hi
  · intro offset ho
    cases parts with
    | nil => cases ho
    | cons x parts =>
      cases ho
      rfl
  · intro i offset next ho hn
    obtain ⟨hnext, hsep⟩ := @Spans.spans_adjacent _ '\n' _ [] _ _ _ (hspan ho) (hspan hn)
    rw [htext]
    exact ⟨hnext, hsep⟩
  · intro offset ho
    have hlast : (Spans.spans 0 ((parts.map (·.item)).map (·.text.toList))).getLast? =
        some (offset.start, offset.stop) := by
      rw [← hspans, List.getLast?_map, ho]
      rfl
    have hend := @Spans.spans_end _ '\n' _ [] _ hlast
    rw [← String.length_toList, htext]
    exact hend

/-! ## Confidence -/

theorem foldl_min_le (l : List ℚ) (a : ℚ) :
    (l.foldl min a = a ∨ l.foldl min a ∈ l) ∧ l.foldl min a ≤ a ∧ ∀ c ∈ l, l.foldl min a ≤ c := by
  rw [List.foldl_min]
  cases hm : l.min? with
  | none =>
    rw [List.min?_eq_none_iff.mp hm, Option.getD_none, min_self]
    exact ⟨.inl rfl, le_refl a, fun c hc => by cases hc⟩
  | some m =>
    obtain ⟨hmem, hall⟩ := List.min?_eq_some_iff.mp hm
    rw [Option.getD_some]
    refine ⟨?_, min_le_left a m, fun c hc => (min_le_right a m).trans (hall c hc)⟩
    rcases min_choice a m with h | h
    · exact .inl h
    · exact .inr (h.symm ▸ hmem)

theorem itemConfidence_filed (active : Dict String DerivedTextArtifact) (x : IncludedArtifact) :
    itemConfidence active x.item = (filedConfidence active x).getD 1 := by
  unfold itemConfidence filedConfidence
  cases active.get? x.item.eventId <;> rfl

/-- The confidence of a composite is the least filed under the events of its parts, if that is less
than one. -/
theorem leastConfidence_iff (active : Dict String DerivedTextArtifact) (parts : List IncludedArtifact) :
    LeastConfidence parts (((parts.map (·.item)).map (itemConfidence active)).foldl min 1) ↔
      ConfidenceFiled active parts := by
  obtain ⟨hmem, hone, hall⟩ := foldl_min_le ((parts.map (·.item)).map (itemConfidence active)) 1
  generalize ((parts.map (·.item)).map (itemConfidence active)).foldl min 1 = least at *
  have hfiled : ∀ y ∈ parts, ∀ c, filedConfidence active y = some c → least ≤ c := by
    intro y hy c hc
    have hle := hall (itemConfidence active y.item)
      (List.mem_map_of_mem (List.mem_map_of_mem hy))
    rwa [itemConfidence_filed, hc] at hle
  constructor
  · rintro ⟨⟨x, hx, rfl⟩, hmin⟩
    refine ⟨x, hx, hmin, hone, hfiled, ?_⟩
    rcases hmem with h | h
    · exact .inl h
    · obtain ⟨item, hitem, hc⟩ := List.mem_map.mp h
      obtain ⟨y, hy, rfl⟩ := List.mem_map.mp hitem
      rw [itemConfidence_filed] at hc
      cases hf : filedConfidence active y with
      | none =>
        rw [hf] at hc
        exact .inl hc.symm
      | some c =>
        rw [hf] at hc
        exact .inr ⟨y, hy, hf.trans (congrArg some hc)⟩
  · rintro ⟨x, hx, hmin, hle, hbelow, hreached⟩
    have hge : x.confidence ≤ least := by
      rcases hmem with h | h
      · exact h ▸ hle
      · obtain ⟨item, hitem, hc⟩ := List.mem_map.mp h
        obtain ⟨y, hy, rfl⟩ := List.mem_map.mp hitem
        rw [itemConfidence_filed] at hc
        rw [← hc]
        cases hf : filedConfidence active y with
        | none => exact hle
        | some c => exact hbelow y hy c hf
    have hle' : least ≤ x.confidence := by
      rcases hreached with h | ⟨y, hy, hf⟩
      · exact h ▸ hone
      · exact hfiled y hy x.confidence hf
    have he : x.confidence = least := le_antisymm hge hle'
    exact ⟨⟨x, hx, he⟩, he ▸ hmin⟩

/-! ## The composite of an event -/

theorem buildCompositeArtifact_included {h : Host} {event : RoomEvent}
    {active : Dict String DerivedTextArtifact} {composite : Composite}
    (hbuilt : buildCompositeArtifact h event active = .ok (some composite)) :
    ∃ parts, included h event active = .ok parts ∧
      compositeOf active (parts.map (·.item)) = some composite := by
  obtain ⟨direct, hdirect, hbuilt⟩ := bind_eq_ok.mp hbuilt
  refine ⟨_, bind_eq_ok.mpr ⟨direct, hdirect, rfl⟩, ?_⟩
  have hcomposite := Except.ok.inj hbuilt
  rw [← hcomposite, List.map_append, List.map_map, List.map_map, List.map_filterMap]
  congr 3
  funext mediaId
  cases hget : active.get? mediaId with
  | none => rfl
  | some artifact => cases hactive : artifact.active <;> simp [hactive, ofArtifact]

/-- The composite of an event keeps the provenance of its parts exactly if their least confidence
is filed under their events. -/
theorem composite_provenance_iff (h : Host) (event : RoomEvent)
    (active : Dict String DerivedTextArtifact) (composite : Composite)
    (hbuilt : buildCompositeArtifact h event active = .ok (some composite)) :
    ∃ parts, included h event active = .ok parts ∧
      (KeepsOffsets composite parts ∧ LeastConfidence parts composite.sourceConfidence ↔
        ConfidenceFiled active parts) := by
  obtain ⟨parts, hparts, hcomposite⟩ := buildCompositeArtifact_included hbuilt
  refine ⟨parts, hparts, ?_⟩
  rw [and_iff_right (compositeOf_offsets hcomposite)]
  unfold compositeOf at hcomposite
  split at hcomposite
  · cases hcomposite
  · cases hcomposite
    exact leastConfidence_iff active parts

/-- A message with a picture. -/
def pictureMessage : RoomEvent where
  eventId := "11111111-1111-4111-8111-111111111111"
  roomId := "22222222-2222-4222-8222-222222222222"
  roomSeq := 1
  type := .messageAdded
  operation := .add
  actorId := "33333333-3333-4333-8333-333333333333"
  actorKind := .human
  actorRole := some .student
  revision := 1
  eventTime := some 0
  ingestTime := some 0
  correlationId := "44444444-4444-4444-8444-444444444444"
  payload :=
    { messageId := some "55555555-5555-4555-8555-555555555555"
      text := ""
      replyTo := none
      mentions := []
      mediaIds := ["66666666-6666-4666-8666-666666666666"] }

/-- What was read in the picture, with half of full confidence. -/
def pictureText : DerivedTextArtifact where
  artifactId := "77777777-7777-4777-8777-777777777777"
  lineageId := "88888888-8888-4888-8888-888888888888"
  roomId := pictureMessage.roomId
  eventId := pictureMessage.eventId
  roomSeq := 1
  sourceMediaId := some "66666666-6666-4666-8666-666666666666"
  sourceModality := .image
  derivation := .ocr
  text := "leaf"
  normalizedTextSha256 := Digest.sha256Hex "leaf"
  sourceConfidenceRaw := 1 / 2
  provider := "ocr"
  modelVersion := "ocr-v1"
  supersedesArtifactId := none
  active := true

def pictureArtifacts : Dict String DerivedTextArtifact :=
  Dict.empty.set "66666666-6666-4666-8666-666666666666" pictureText

def pictureComposite : Composite := ⟨"leaf", .imageOcr, 1, [⟨pictureMessage.eventId, 0, 4, .image⟩]⟩

theorem composite_provenance_iff_picture :
    buildCompositeArtifact .ascii pictureMessage pictureArtifacts = .ok (some pictureComposite) ∧
      ∃ parts, included .ascii pictureMessage pictureArtifacts = .ok parts ∧
        (KeepsOffsets pictureComposite parts ∧
          LeastConfidence parts pictureComposite.sourceConfidence ↔
            ConfidenceFiled pictureArtifacts parts) := by
  have hbuilt : buildCompositeArtifact .ascii pictureMessage pictureArtifacts =
      .ok (some pictureComposite) := by decide +kernel
  exact ⟨hbuilt, composite_provenance_iff .ascii pictureMessage pictureArtifacts pictureComposite
    hbuilt⟩

/-- The text of the picture is passed on with full confidence. -/
theorem picture_confidence :
    ¬ ∀ (h : Host) (event : RoomEvent) (active : Dict String DerivedTextArtifact)
      (composite : Composite), buildCompositeArtifact h event active = .ok (some composite) →
        ∃ parts, included h event active = .ok parts ∧
          KeepsOffsets composite parts ∧ LeastConfidence parts composite.sourceConfidence := by
  intro hall
  have hbuilt : buildCompositeArtifact .ascii pictureMessage pictureArtifacts =
      .ok (some pictureComposite) := by decide +kernel
  obtain ⟨parts, hparts, -, -, hmin⟩ := hall .ascii pictureMessage pictureArtifacts pictureComposite
    hbuilt
  have hincluded : included .ascii pictureMessage pictureArtifacts =
      .ok [ofArtifact pictureText] := rfl
  rw [hincluded] at hparts
  cases hparts
  have hle : (1 : ℚ) ≤ 1 / 2 := hmin (ofArtifact pictureText) List.mem_cons_self
  exact absurd hle (by decide +kernel)

end LearningOrbit.Worker
