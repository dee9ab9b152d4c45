import X402Mesh.Registry.Envelopes

set_option autoImplicit false

namespace X402Mesh.Registry.Base64

theorem value_digit : ∀ n < 64, value (digit n) = n := by
  decide

theorem standard_digit : ∀ n < 64, standard (digit n) = true := by
  decide

theorem digit_ne_pad {n : Nat} (small : n < 64) : digit n ≠ '=' := by
  intro same
  have listed := standard_digit n small
  rw [same] at listed
  exact absurd listed (by decide)

theorem decode_encode {bytes : List Nat} (small : ∀ b ∈ bytes, b < 256) :
    decode (encode bytes) = bytes := by
  fun_induction encode bytes with
  | case1 => rfl
  | case2 x =>
    have first : x < 256 := small x (by simp)
    have a := value_digit (x / 4) (by omega)
    have b := value_digit (x % 4 * 16) (by omega)
    simp only [decode, if_true, a, b, List.cons.injEq, and_true]
    omega
  | case3 x y =>
    have first : x < 256 := small x (by simp)
    have second : y < 256 := small y (by simp)
    have a := value_digit (x / 4) (by omega)
    have b := value_digit (x % 4 * 16 + y / 16) (by omega)
    have c := value_digit (y % 16 * 4) (by omega)
    have inner : digit (y % 16 * 4) ≠ '=' := digit_ne_pad (by omega)
    simp only [decode, inner, if_false, if_true, a, b, c, List.cons.injEq, and_true]
    omega
  | case4 x y z rest ih =>
    have first : x < 256 := small x (by simp)
    have second : y < 256 := small y (by simp)
    have third : z < 256 := small z (by simp)
    have later := ih fun b member => small b (by simp [member])
    have a := value_digit (x / 4) (by omega)
    have b := value_digit (x % 4 * 16 + y / 16) (by omega)
    have c := value_digit (y % 16 * 4 + z / 64) (by omega)
    have d := value_digit (z % 64) (by omega)
    have inner : digit (y % 16 * 4 + z / 64) ≠ '=' := digit_ne_pad (by omega)
    have last : digit (z % 64) ≠ '=' := digit_ne_pad (by omega)
    simp only [List.cons_append, List.nil_append, decode, inner, last, if_false, a, b, c, d, later,
      List.cons.injEq, and_true]
    omega

-- Letters of the alphabet, and then at most two pads.
theorem encode_shape {bytes : List Nat} (small : ∀ b ∈ bytes, b < 256) :
    ∃ body pad, encode bytes = body ++ pad ∧ (∀ c ∈ body, standard c = true) ∧
      pad ∈ [[], ['='], ['=', '=']] ∧ (bytes ≠ [] → body ≠ []) ∧ (encode bytes).length % 4 = 0 := by
  fun_induction encode bytes with
  | case1 => exact ⟨[], [], by simp⟩
  | case2 x =>
    have first : x < 256 := small x (by simp)
    have a := standard_digit (x / 4) (by omega)
    have b := standard_digit (x % 4 * 16) (by omega)
    exact ⟨[digit (x / 4), digit (x % 4 * 16)], ['=', '='], by simp [a, b]⟩
  | case3 x y =>
    have first : x < 256 := small x (by simp)
    have second : y < 256 := small y (by simp)
    have a := standard_digit (x / 4) (by omega)
    have b := standard_digit (x % 4 * 16 + y / 16) (by omega)
    have c := standard_digit (y % 16 * 4) (by omega)
    exact ⟨[digit (x / 4), digit (x % 4 * 16 + y / 16), digit (y % 16 * 4)], ['='],
      by simp [a, b, c]⟩
  | case4 x y z rest ih =>
    have first : x < 256 := small x (by simp)
    have second : y < 256 := small y (by simp)
    have third : z < 256 := small z (by simp)
    obtain ⟨body, pad, shape, letters, padded, -, even⟩ :=
      ih fun b member => small b (by simp [member])
    have a := standard_digit (x / 4) (by omega)
    have b := standard_digit (x % 4 * 16 + y / 16) (by omega)
    have c := standard_digit (y % 16 * 4 + z / 64) (by omega)
    have d := standard_digit (z % 64) (by omega)
    refine ⟨[digit (x / 4), digit (x % 4 * 16 + y / 16), digit (y % 16 * 4 + z / 64),
      digit (z % 64)] ++ body, pad, by rw [shape, List.append_assoc], ?_, padded, by simp, ?_⟩
    · simpa [a, b, c, d] using letters
    · simp only [List.length_append, List.length_cons, List.length_nil]
      omega

theorem pattern_encode {bytes : List Nat} (small : ∀ b ∈ bytes, b < 256) (some : bytes ≠ []) :
    pattern (encode bytes) = true := by
  obtain ⟨body, pad, shape, letters, padded, named, -⟩ := encode_shape small
  have stops : pad.takeWhile standard = [] := by
    simp only [List.mem_cons, List.not_mem_nil, or_false] at padded
    rcases padded with rfl | rfl | rfl <;> rfl
  have front : (body ++ pad).takeWhile standard = body := by
    rw [List.takeWhile_append_of_pos letters, stops, List.append_nil]
  have left : (body ++ pad).drop body.length = pad := List.drop_left
  simp only [pattern, shape, front, left]
  simp [named some, padded]

theorem ofLength_encode {bytes : List Nat} (small : ∀ b ∈ bytes, b < 256) (some : bytes ≠ []) :
    ofLength bytes.length (String.ofList (encode bytes)) = true := by
  obtain ⟨body, pad, shape, -, -, named, even⟩ := encode_shape small
  have written : encode bytes ≠ [] := by
    rw [shape]
    simp [named some]
  simp [ofLength, decode_encode small, pattern_encode small some, even, written]

end X402Mesh.Registry.Base64
