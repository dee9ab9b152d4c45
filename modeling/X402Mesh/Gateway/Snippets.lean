import X402Mesh.Gateway.Pump

set_option autoImplicit false

namespace X402Mesh.Gateway.Snippets

open Pump Router Utf8

-- A response whose body comes in these chunks and ends.
def bodyOf (chunks : List (List UInt8)) : Body :=
  ⟨decoded .init chunks, none, String.ofList (Decoder.init.decode chunks.flatten).1.broken⟩

-- The chunks in front of the one that passes the limit.
def fitting (limit : Nat) : Nat → List (List UInt8) → List (List UInt8)
  | _, [] => []
  | received, value :: rest =>
    if received + value.length > limit then []
    else value :: fitting limit (received + value.length) rest

def kept (limit : Nat) (chunks : List (List UInt8)) : List UInt8 := (fitting limit 0 chunks).flatten

theorem fitting_front (limit received : Nat) (chunks : List (List UInt8)) :
    (fitting limit received chunks).flatten <+: chunks.flatten := by
  induction chunks generalizing received with
  | nil => exact List.prefix_refl _
  | cons value rest ih =>
    simp only [fitting]
    split
    next => exact List.nil_prefix
    next => exact (List.prefix_append_right_inj value).mpr (ih _)

theorem fitting_length (limit received : Nat) (chunks : List (List UInt8)) (below : received ≤ limit) :
    received + (fitting limit received chunks).flatten.length ≤ limit := by
  induction chunks generalizing received with
  | nil => simpa [fitting] using below
  | cons value rest ih =>
    simp only [fitting]
    split
    next => simpa using below
    next within =>
      have later := ih (received + value.length) (by omega)
      simp only [List.flatten_cons, List.length_append]
      omega

theorem readChunks_decoded (limit : Nat) (rest : String) (chunks : List (List UInt8)) (d : Decoder)
    (received : Nat) (before : String) (below : received ≤ limit) :
    readChunks limit none rest (decoded d chunks) received before =
      if received + chunks.flatten.length ≤ limit then
        .ok (before ++ String.ofList (d.decode chunks.flatten).2 ++ rest, false)
      else .ok (before ++ String.ofList (d.decode (fitting limit received chunks).flatten).2, true) := by
  induction chunks generalizing d received before with
  | nil =>
    rw [if_pos (by simpa using below)]
    simp [decoded, readChunks, Decoder.decode]
  | cons value tail ih =>
    simp only [decoded, readChunks, fitting, List.flatten_cons, List.length_append]
    by_cases past : received + value.length > limit
    next =>
      rw [if_pos past, if_neg (by omega), if_pos past]
      simp [Decoder.decode]
    next =>
      rw [if_neg past, if_neg past, ih _ _ _ (by omega)]
      simp only [List.flatten_cons, Decoder.decode_append, String.ofList_append, String.append_assoc,
        Nat.add_assoc]

theorem readBounded_bodyOf (limit : Nat) (chunks : List (List UInt8)) :
    readBounded limit (some (bodyOf chunks)) =
      if chunks.flatten.length ≤ limit then .ok (String.ofList (complete chunks.flatten), false)
      else .ok (String.ofList (text (kept limit chunks)), true) := by
  have read := readChunks_decoded limit
    (String.ofList (Decoder.init.decode chunks.flatten).1.broken) chunks .init 0 "" (Nat.zero_le _)
  simpa only [readBounded, bodyOf, Nat.zero_add, String.empty_append, ← String.ofList_append,
    complete, text, kept] using read

-- A byte decodes to at most one unit, so that the slice cuts nothing off.
theorem take_ofList (cs : List Char) (bytes : Nat) (short : (units cs).length ≤ bytes) :
    String.ofList ((String.ofList cs).toList.take bytes) = String.ofList cs := by
  have length := length_le_units cs
  rw [String.toList_ofList, List.take_of_length_le (by omega)]

theorem kept_length (limit : Nat) (chunks : List (List UInt8)) : (kept limit chunks).length ≤ limit := by
  have bound := fitting_length limit 0 chunks (Nat.zero_le _)
  rwa [Nat.zero_add] at bound

theorem length_units_text (bytes : List UInt8) : (units (text bytes)).length ≤ bytes.length := by
  have whole := length_units_complete bytes
  rw [complete, units_append, List.length_append] at whole
  omega

theorem readErrorSnippet_bodyOf (chunks : List (List UInt8)) :
    readErrorSnippet (some (bodyOf chunks)) =
      if chunks.flatten.length ≤ errorSnippetBytes then String.ofList (complete chunks.flatten)
      else String.ofList (text (kept errorSnippetBytes chunks)) := by
  rw [readErrorSnippet, readBounded_bodyOf]
  by_cases fits : chunks.flatten.length ≤ errorSnippetBytes
  next =>
    rw [if_pos fits, if_pos fits]
    exact take_ofList _ _ (Nat.le_trans (length_units_complete _) fits)
  next =>
    rw [if_neg fits, if_neg fits]
    exact take_ofList _ _ (Nat.le_trans (length_units_text _) (kept_length _ _))

/-- The decoding of the body's first 256 bytes; a character that they leave incomplete may be
flushed or left out. -/
def Excerpt (body : List UInt8) (snippet : String) : Prop :=
  snippet = String.ofList (text (body.take errorSnippetBytes)) ∨
    snippet = String.ofList (complete (body.take errorSnippetBytes))

-- The bytes that are dropped although they are among the first 256.
def dropped (chunks : List (List UInt8)) : List UInt8 :=
  (chunks.flatten.take errorSnippetBytes).drop (kept errorSnippetBytes chunks).length

-- What is dropped of the excerpt is no more than the beginning of a character.
def Whole (chunks : List (List UInt8)) : Prop :=
  chunks.flatten.length ≤ errorSnippetBytes ∨
    ((Decoder.init.decode (kept errorSnippetBytes chunks)).1.decode (dropped chunks)).2 = []

theorem kept_dropped (chunks : List (List UInt8)) :
    kept errorSnippetBytes chunks ++ dropped chunks = chunks.flatten.take errorSnippetBytes := by
  have front : kept errorSnippetBytes chunks <+: chunks.flatten.take errorSnippetBytes :=
    List.prefix_take_iff.mpr ⟨fitting_front _ _ _, kept_length _ _⟩
  obtain ⟨rest, split⟩ := front
  rw [dropped, ← split, List.drop_left]

theorem excerpt_iff (chunks : List (List UInt8)) :
    Excerpt chunks.flatten (readErrorSnippet (some (bodyOf chunks))) ↔ Whole chunks := by
  rw [readErrorSnippet_bodyOf, Excerpt, Whole]
  split
  next fits =>
    rw [List.take_of_length_le fits]
    exact ⟨fun _ => .inl fits, fun _ => .inr rfl⟩
  next long =>
    rw [← kept_dropped, text_append, complete_append]
    constructor
    next =>
      intro excerpt
      right
      cases excerpt with
      | inl shown => simpa using String.ofList_injective shown
      | inr flushed =>
        have nothing := String.ofList_injective flushed
        simp only [List.self_eq_append_right, List.append_eq_nil_iff] at nothing
        exact nothing.1
    next =>
      intro whole
      left
      rw [whole.resolve_left long, List.append_nil]

/-- The two ways of cutting one body are told apart by neither read, and the excerpt is what the
first 256 bytes decode to. -/
def ChunkFree (a b : List (List UInt8)) : Prop :=
  readErrorSnippet (some (bodyOf a)) = readErrorSnippet (some (bodyOf b)) ∧
  Excerpt a.flatten (readErrorSnippet (some (bodyOf a))) ∧
  ∀ limit, ∃ textA textB truncated, readBounded limit (some (bodyOf a)) = .ok (textA, truncated) ∧
    readBounded limit (some (bodyOf b)) = .ok (textB, truncated) ∧ (truncated = false → textA = textB)

theorem readBounded_chunkFree (a b : List (List UInt8)) (same : a.flatten = b.flatten) (limit : Nat) :
    ∃ textA textB truncated, readBounded limit (some (bodyOf a)) = .ok (textA, truncated) ∧
      readBounded limit (some (bodyOf b)) = .ok (textB, truncated) ∧
      (truncated = false → textA = textB) := by
  rw [readBounded_bodyOf, readBounded_bodyOf, same]
  split
  next => exact ⟨_, _, _, rfl, rfl, fun _ => rfl⟩
  next => exact ⟨_, _, _, rfl, rfl, nofun⟩

theorem snippet_of_whole (chunks : List (List UInt8)) (whole : Whole chunks) :
    readErrorSnippet (some (bodyOf chunks)) =
      if chunks.flatten.length ≤ errorSnippetBytes then String.ofList (complete chunks.flatten)
      else String.ofList (text (chunks.flatten.take errorSnippetBytes)) := by
  rw [readErrorSnippet_bodyOf]
  split
  next => rfl
  next long => rw [← kept_dropped, text_append, whole.resolve_left long, List.append_nil]

theorem bounded_reads_iff (a b : List (List UInt8)) (same : a.flatten = b.flatten) :
    ChunkFree a b ↔ Whole a ∧ Whole b := by
  constructor
  next =>
    intro free
    refine ⟨(excerpt_iff a).mp free.2.1, (excerpt_iff b).mp ?_⟩
    rw [← free.1, ← same]
    exact free.2.1
  next =>
    intro whole
    refine ⟨?_, (excerpt_iff a).mpr whole.1, readBounded_chunkFree a b same⟩
    rw [snippet_of_whole a whole.1, snippet_of_whole b whole.2, same]

-- One body of 257 bytes, in one chunk and in two.
def oneChunk : List (List UInt8) := [List.replicate 257 120]

def twoChunks : List (List UInt8) := [[120], List.replicate 256 120]

theorem bounded_reads_iff_long :
    ChunkFree oneChunk twoChunks ↔ Whole oneChunk ∧ Whole twoChunks :=
  bounded_reads_iff oneChunk twoChunks (by decide +kernel)

theorem snippets_differ :
    oneChunk.flatten = twoChunks.flatten ∧ ¬ ChunkFree oneChunk twoChunks := by
  refine ⟨by decide +kernel, fun free => ?_⟩
  have first := free.1
  rw [readErrorSnippet_bodyOf, readErrorSnippet_bodyOf, if_neg (by decide +kernel),
    if_neg (by decide +kernel)] at first
  have texts := String.ofList_injective first
  revert texts
  decide +kernel

end X402Mesh.Gateway.Snippets
