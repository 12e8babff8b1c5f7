import Switchboard.Text.Utf8

/-!
# Text is read as it was written

Reading is a machine that takes one byte after the other. The bytes of a character lead it from where
nothing is begun back to there, whatever follows (`pieces_encodeChar`): the first byte says how many
follow it, and every character keeps the bounds that it sets for the next one. So a text comes back
from its bytes, whether they are read leniently (`lossy_encode`) or strictly (`decode_encode`).
-/

namespace Switchboard.Utf8

theorem start_ascii {code : Nat} (fits : code < 128) : start (UInt8.ofNat code) = .ascii := by
  revert code
  decide

/-- A first byte of two carries some bits: there is a shorter spelling of what has none. -/
theorem start_two {high : Nat} (fits : high < 32) (low : 2 ≤ high) :
    start (UInt8.ofNat (high + 192)) = .begun ⟨high, 1, 1, 0x80, 0xBF⟩ := by
  revert high
  decide

/-- Of three bytes the second is bounded below where the first carries no bits, and above where the
characters leave a gap. -/
theorem start_three {high : Nat} (fits : high < 16) :
    start (UInt8.ofNat (high + 224)) =
      .begun ⟨high, 1, 2, if high = 0 then 0xA0 else 0x80, if high = 13 then 0x9F else 0xBF⟩ := by
  revert high
  decide

/-- Of four bytes the second is bounded below where the first carries no bits, and above where the
characters end. -/
theorem start_four {high : Nat} (fits : high < 5) :
    start (UInt8.ofNat (high + 240)) =
      .begun ⟨high, 1, 3, if high = 0 then 0x90 else 0x80, if high = 4 then 0x8F else 0xBF⟩ := by
  revert high
  decide

/-- The character begun with six bits more. -/
def Begun.extend (b : Begun) (bits : Nat) : Begun :=
  ⟨b.code * 64 + bits, b.taken + 1, b.due - 1, 0x80, 0xBF⟩

theorem Begun.add_eq_extend (b : Begun) {byte : UInt8} {bits : Nat}
    (value : byte.toNat = bits + 128) : b.add byte = b.extend bits := by
  have carried : byte.toNat - 0x80 = bits := by omega
  unfold Begun.add Begun.extend
  rw [carried]

/-- A byte that follows the first one carries six bits. -/
theorem step_tail {b : Begun} {bits : Nat} (fits : bits < 64) (low : b.low.toNat ≤ bits + 128)
    (high : bits + 128 ≤ b.high.toNat) :
    step (some b) (UInt8.ofNat (bits + 128)) =
      if b.due = 1 then ([.char (Char.ofNat (b.extend bits).code)], none)
      else ([], some (b.extend bits)) := by
  have value : (UInt8.ofNat (bits + 128)).toNat = bits + 128 := by
    rw [UInt8.toNat_ofNat', Nat.mod_eq_of_lt (by omega)]
  generalize UInt8.ofNat (bits + 128) = byte at value
  have accepted : b.accepts byte = true := by
    simp [Begun.accepts, UInt8.le_iff_toNat_le, value, low, high]
  simp only [step, accepted, b.add_eq_extend value, if_true]

/-- A byte that begins a character, and the bytes after it. -/
theorem piecesFrom_begun {byte : UInt8} {b : Begun} (begins : start byte = .begun b)
    (rest : Bytes) : piecesFrom none (byte :: rest) = piecesFrom (some b) rest := by
  simp [piecesFrom, step, step.fresh, begins]

theorem piecesFrom_tail {b : Begun} {bits : Nat} (due : b.due ≠ 1) (fits : bits < 64)
    (low : b.low.toNat ≤ bits + 128) (high : bits + 128 ≤ b.high.toNat) (rest : Bytes) :
    piecesFrom (some b) (UInt8.ofNat (bits + 128) :: rest) =
      piecesFrom (some (b.extend bits)) rest := by
  simp only [piecesFrom, step_tail fits low high, if_neg due, List.nil_append]

theorem piecesFrom_last {b : Begun} {bits : Nat} (due : b.due = 1) (fits : bits < 64)
    (low : b.low.toNat ≤ bits + 128) (high : bits + 128 ≤ b.high.toNat) (rest : Bytes) :
    piecesFrom (some b) (UInt8.ofNat (bits + 128) :: rest) =
      .char (Char.ofNat (b.extend bits).code) :: pieces rest := by
  simp only [piecesFrom, step_tail fits low high, if_pos due, List.singleton_append, pieces]

theorem pieces_one (code : Nat) (high : code < 128) (rest : Bytes) :
    pieces (UInt8.ofNat code :: rest) = .char (Char.ofNat code) :: pieces rest := by
  have value : (UInt8.ofNat code).toNat = code := by
    rw [UInt8.toNat_ofNat', Nat.mod_eq_of_lt (by omega)]
  simp only [pieces, piecesFrom, step, step.fresh, start_ascii high, value, List.singleton_append]

theorem pieces_two (code : Nat) (low : 128 ≤ code) (high : code < 2048) (rest : Bytes) :
    pieces (UInt8.ofNat (code / 64 % 32 + 192) :: UInt8.ofNat (code % 64 + 128) :: rest) =
      .char (Char.ofNat code) :: pieces rest := by
  have lead : code / 64 % 32 = code / 64 := by omega
  have joined : code / 64 * 64 + code % 64 = code := by omega
  rw [pieces, lead, piecesFrom_begun (start_two (by omega) (by omega)),
    piecesFrom_last rfl (by omega) (by simp) (by simp; omega), Begun.extend, joined]

theorem pieces_three (code : Nat) (low : 2048 ≤ code) (high : code < 65536)
    (valid : code < 0xD800 ∨ 0xDFFF < code) (rest : Bytes) :
    pieces (UInt8.ofNat (code / 4096 % 16 + 224) :: UInt8.ofNat (code / 64 % 64 + 128) ::
      UInt8.ofNat (code % 64 + 128) :: rest) = .char (Char.ofNat code) :: pieces rest := by
  have lead : code / 4096 % 16 = code / 4096 := by omega
  have joined : (code / 4096 * 64 + code / 64 % 64) * 64 + code % 64 = code := by omega
  have next_low : (if code / 4096 = 0 then 0xA0 else 0x80 : UInt8).toNat ≤ code / 64 % 64 + 128 := by
    split
    · simp
      omega
    · simp
  have next_high : code / 64 % 64 + 128 ≤
      (if code / 4096 = 13 then 0x9F else 0xBF : UInt8).toNat := by
    split <;> simp <;> omega
  rw [pieces, lead, piecesFrom_begun (start_three (by omega)),
    piecesFrom_tail (by simp) (by omega) next_low next_high,
    piecesFrom_last rfl (by omega) (by simp [Begun.extend]) (by simp [Begun.extend]; omega)]
  simp only [Begun.extend, joined]

theorem pieces_four (code : Nat) (low : 65536 ≤ code) (high : code < 0x110000) (rest : Bytes) :
    pieces (UInt8.ofNat (code / 262144 % 8 + 240) :: UInt8.ofNat (code / 4096 % 64 + 128) ::
      UInt8.ofNat (code / 64 % 64 + 128) :: UInt8.ofNat (code % 64 + 128) :: rest) =
      .char (Char.ofNat code) :: pieces rest := by
  have lead : code / 262144 % 8 = code / 262144 := by omega
  have joined : ((code / 262144 * 64 + code / 4096 % 64) * 64 + code / 64 % 64) * 64 + code % 64 =
      code := by omega
  have next_low : (if code / 262144 = 0 then 0x90 else 0x80 : UInt8).toNat ≤
      code / 4096 % 64 + 128 := by
    split
    · simp
      omega
    · simp
  have next_high : code / 4096 % 64 + 128 ≤
      (if code / 262144 = 4 then 0x8F else 0xBF : UInt8).toNat := by
    split <;> simp <;> omega
  rw [pieces, lead, piecesFrom_begun (start_four (by omega)),
    piecesFrom_tail (by simp) (by omega) next_low next_high,
    piecesFrom_tail (by simp [Begun.extend]) (by omega) (by simp [Begun.extend])
      (by simp [Begun.extend]; omega),
    piecesFrom_last rfl (by omega) (by simp [Begun.extend]) (by simp [Begun.extend]; omega)]
  simp only [Begun.extend, joined]

/-- The bytes of a character are read as that character, and nothing of it is left. -/
theorem pieces_encodeChar (c : Char) (rest : Bytes) :
    pieces (String.utf8EncodeChar c ++ rest) = .char c :: pieces rest := by
  have valid : c.val.toNat < 0xD800 ∨ 0xDFFF < c.val.toNat ∧ c.val.toNat < 0x110000 := c.valid
  have same : Char.ofNat c.val.toNat = c := Char.ofNat_toNat c
  fun_cases String.utf8EncodeChar c with
  | case1 code one =>
    exact (pieces_one code (by omega) rest).trans (by rw [same])
  | case2 code _ two =>
    exact (pieces_two code (by omega) (by omega) rest).trans (by rw [same])
  | case3 code _ _ three =>
    exact (pieces_three code (by omega) (by omega) (by omega) rest).trans (by rw [same])
  | case4 code _ _ four =>
    exact (pieces_four code (by omega) (by omega) rest).trans (by rw [same])

/-- A text is read from its bytes. -/
theorem pieces_encode (text : String) : pieces (encode text) = text.toList.map .char := by
  rw [encode]
  induction text.toList with
  | nil => rfl
  | cons c rest ih => rw [List.flatMap_cons, pieces_encodeChar, ih, List.map_cons]

/-- Only the empty text has no bytes. -/
theorem encode_eq_nil {text : String} : encode text = [] ↔ text = "" := by
  rw [encode, List.flatMap_eq_nil_iff, ← String.toList_eq_nil_iff, List.eq_nil_iff_forall_not_mem]
  exact forall₂_congr fun c _ => by simp

@[simp] theorem lossy_encode (text : String) : lossy (encode text) = text := by
  simp [lossy, pieces_encode, Function.comp_def]

theorem encode_injective : Function.Injective encode :=
  Function.LeftInverse.injective lossy_encode

theorem collect_char (chars : List Char) (at_ : Nat) :
    collect at_ (chars.map .char) = .ok chars := by
  induction chars generalizing at_ with
  | nil => rfl
  | cons c rest ih =>
    rw [List.map_cons, collect, ih]
    rfl

@[simp] theorem decode_encode (text : String) : decode (encode text) = .ok text := by
  rw [decode, pieces_encode, collect_char, Except.map, String.ofList_toList]

end Switchboard.Utf8
