import Mathlib.Data.List.Basic
import Mathlib.Data.Nat.Notation

/-!
# Streams of frames

A format reads one frame at a time off some input, up to a frame that ends the stream. Copying
a stream writes back the frames that are kept, so that what was copied is a stream again, of
those frames.
-/

namespace LearningOrbit.Frames

/-- How frames are read and written. What a frame was read from is at least as long as what it
is written as, and what it is written as is read as the frame. -/
structure Format (ε β α : Type) where
  read : List β → Except ε (α × List β)
  write : α → List β
  /-- No frame comes after this one. -/
  last : α → Bool
  write_pos : ∀ a, 0 < (write a).length
  shrinks : ∀ {t a rest}, read t = .ok (a, rest) → (write a).length + rest.length ≤ t.length
  read_write : ∀ {t a rest}, read t = .ok (a, rest) → last a = false →
    ∀ after, read (write a ++ after) = .ok (a, after)
  read_last : ∀ {t a rest}, read t = .ok (a, rest) → last a = true → read (write a) = .ok (a, [])

variable {ε β α : Type}

namespace Format

variable (f : Format ε β α) (keep : α → Bool)

theorem read_lt {t rest : List β} {a : α} (h : f.read t = .ok (a, rest)) :
    rest.length < t.length := by
  have hpos := f.write_pos a
  have hle := f.shrinks h
  omega

/-- Copy the frames that are kept, and tell which were not. -/
def copy (out : List β) (removed : List α) (t : List β) : Except ε (List β × List α) :=
  match _ : f.read t with
  | .error e => .error e
  | .ok (a, rest) =>
    let out := if keep a then out ++ f.write a else out
    let removed := if keep a then removed else removed ++ [a]
    if f.last a then .ok (out, removed) else copy out removed rest
termination_by t.length
decreasing_by exact f.read_lt ‹_›

/-- The frames of a stream, and what is left after the one that ends it. -/
inductive Stream : List β → List α → List β → Prop
  | last {t rest : List β} {a : α} : f.read t = .ok (a, rest) → f.last a = true → Stream t [a] rest
  | more {t t' rest : List β} {a : α} {frames : List α} : f.read t = .ok (a, t') →
      f.last a = false → Stream t' frames rest → Stream t (a :: frames) rest

/-- The text of the frames that are kept. -/
def kept (frames : List α) : List β := (frames.filter keep).flatMap f.write

/-- The frames that are not. -/
def dropped (frames : List α) : List α := frames.filter fun a => !keep a

variable {f keep} {t rest out out' : List β} {frames removed removed' : List α}

theorem kept_cons (a : α) (frames : List α) :
    f.kept keep (a :: frames) = (if keep a then f.write a else []) ++ f.kept keep frames := by
  cases h : keep a <;> simp [kept, h]

theorem dropped_cons (a : α) (frames : List α) :
    dropped keep (a :: frames) = (if keep a then [] else [a]) ++ dropped keep frames := by
  cases h : keep a <;> simp [dropped, h]

/-- One frame more. -/
theorem copy_eq {a : α} (h : f.read t = .ok (a, rest)) :
    f.copy keep out removed t =
      if f.last a then .ok (out ++ f.kept keep [a], removed ++ dropped keep [a])
      else f.copy keep (out ++ f.kept keep [a]) (removed ++ dropped keep [a]) rest := by
  have hout : (if keep a then out ++ f.write a else out) = out ++ f.kept keep [a] := by
    cases hk : keep a <;> simp [kept, hk]
  have hremoved : (if keep a then removed else removed ++ [a]) = removed ++ dropped keep [a] := by
    cases hk : keep a <;> simp [dropped, hk]
  rw [copy]
  split
  next e he =>
    rw [h] at he
    cases he
  next b rest' hb =>
    rw [h] at hb
    cases hb
    simp only [hout, hremoved]

theorem Stream.copy (h : f.Stream t frames rest) (out : List β) (removed : List α) :
    f.copy keep out removed t =
      .ok (out ++ f.kept keep frames, removed ++ dropped keep frames) := by
  induction h generalizing out removed with
  | last hread hlast => rw [copy_eq hread, if_pos hlast]
  | @more t t' rest a frames hread hlast _ ih =>
    rw [copy_eq hread, hlast, if_neg Bool.false_ne_true, ih, List.append_assoc, List.append_assoc,
      kept_cons a frames, kept_cons a [], dropped_cons a frames, dropped_cons a []]
    simp [kept, dropped]

theorem exists_stream_of_copy (n : ℕ) (hn : t.length ≤ n)
    (h : f.copy keep out removed t = .ok (out', removed')) :
    ∃ frames rest, f.Stream t frames rest := by
  induction n generalizing t out removed with
  | zero =>
    rw [copy] at h
    split at h
    · cases h
    next a rest hread => exact absurd (f.read_lt hread) (by omega)
  | succ n ih =>
    cases hread : f.read t with
    | error e =>
      rw [copy] at h
      split at h
      · cases h
      next a rest hok => rw [hread] at hok; cases hok
    | ok p =>
      obtain ⟨a, rest⟩ := p
      rw [copy_eq hread] at h
      cases hlast : f.last a with
      | true => exact ⟨[a], rest, .last hread hlast⟩
      | false =>
        rw [hlast, if_neg Bool.false_ne_true] at h
        have hlt := f.read_lt hread
        obtain ⟨frames, rest', hstream⟩ := ih (by omega) h
        exact ⟨a :: frames, rest', .more hread hlast hstream⟩

/-- Only a stream is copied, and what is copied of it is the frames that are kept. -/
theorem copy_eq_ok : f.copy keep out removed t = .ok (out', removed') ↔
    ∃ frames rest, f.Stream t frames rest ∧ out' = out ++ f.kept keep frames ∧
      removed' = removed ++ dropped keep frames := by
  constructor
  · intro h
    obtain ⟨frames, rest, hstream⟩ := exists_stream_of_copy t.length (Nat.le_refl _) h
    rw [hstream.copy out removed] at h
    cases h
    exact ⟨frames, rest, hstream, rfl, rfl⟩
  · rintro ⟨frames, rest, hstream, rfl, rfl⟩
    exact hstream.copy out removed

theorem Stream.unique {t rest' : List β} {frames' : List α} (h : f.Stream t frames rest)
    (h' : f.Stream t frames' rest') : frames = frames' ∧ rest = rest' := by
  induction h generalizing frames' rest' with
  | last hread hlast =>
    cases h' with
    | last hread' _ =>
      rw [hread] at hread'
      cases hread'
      exact ⟨rfl, rfl⟩
    | more hread' hlast' _ =>
      rw [hread] at hread'
      cases hread'
      rw [hlast] at hlast'
      cases hlast'
  | more hread hlast _ ih =>
    cases h' with
    | last hread' hlast' =>
      rw [hread] at hread'
      cases hread'
      rw [hlast] at hlast'
      cases hlast'
    | more hread' _ hstream' =>
      rw [hread] at hread'
      cases hread'
      obtain ⟨rfl, hrest⟩ := ih hstream'
      exact ⟨rfl, hrest⟩

/-- What is kept of a stream is no longer than what it was read from. -/
theorem Stream.length_kept (h : f.Stream t frames rest) :
    (f.kept keep frames).length + rest.length ≤ t.length := by
  induction h with
  | @last t rest a hread _ =>
    have hle := f.shrinks hread
    cases hk : keep a <;> simp [kept, hk] <;> omega
  | @more t t' rest a frames hread _ _ ih =>
    have hle := f.shrinks hread
    rw [kept_cons, List.length_append]
    cases hk : keep a <;> simp <;> omega

/-- The kept frames are a stream of their own, when none that ends a stream is dropped. -/
theorem Stream.filter (h : f.Stream t frames rest) (hkeep : ∀ a, f.last a = true → keep a = true) :
    f.Stream (f.kept keep frames) (frames.filter keep) [] := by
  induction h with
  | @last t rest a hread hlast =>
    have hk := hkeep a hlast
    have hwrite : f.kept keep [a] = f.write a := by simp [kept, hk]
    rw [hwrite, List.filter_cons_of_pos hk, List.filter_nil]
    exact .last (f.read_last hread hlast) hlast
  | @more t t' rest a frames hread hlast _ ih =>
    rw [kept_cons]
    cases hk : keep a with
    | true =>
      rw [List.filter_cons_of_pos hk, if_pos rfl]
      exact .more (f.read_write hread hlast _) hlast ih
    | false =>
      rw [List.filter_cons_of_neg (by simp [hk]), if_neg Bool.false_ne_true]
      exact ih

theorem kept_filter (frames : List α) : f.kept keep (frames.filter keep) = f.kept keep frames := by
  simp [kept, List.filter_filter]

theorem dropped_filter (frames : List α) : dropped keep (frames.filter keep) = [] := by
  simp [dropped, List.filter_filter]

/-- What was copied is copied whole. -/
theorem copy_copy (hkeep : ∀ a, f.last a = true → keep a = true)
    (h : f.copy keep [] [] t = .ok (out', removed')) :
    f.copy keep out removed out' = .ok (out ++ out', removed) := by
  obtain ⟨frames, rest, hstream, rfl, -⟩ := copy_eq_ok.mp h
  have hcopy : f.copy keep out removed (f.kept keep frames) =
      .ok (out ++ f.kept keep (frames.filter keep), removed ++ dropped keep (frames.filter keep)) :=
    (hstream.filter hkeep).copy out removed
  rwa [kept_filter, dropped_filter, List.append_nil, ← List.nil_append (f.kept keep frames)] at hcopy

end Format

end LearningOrbit.Frames
