import BlockCheck.Text.Affix
import BlockCheck.Text.Utf8

/-!
# Percent encoding

A character that is not allowed to stand for itself is written as its UTF-8 bytes, each as a
percent sign and two hexadecimal digits.
-/

namespace BlockCheck.Text.Percent

/-- The characters that a component of an address leaves as they are. -/
def isUnreserved (c : Char) : Bool := c.isAlphanum || "-_.!~*'()".toList.contains c

def upperHex (n : Nat) : Char := (Nat.digitChar n).toUpper

def escapeByte (b : UInt8) : List Char := ['%', upperHex (b.toNat / 16), upperHex (b.toNat % 16)]

def encodeChar (c : Char) : List Char :=
  if isUnreserved c then [c] else (Utf8.encodeChar c).flatMap escapeByte

def encode (s : List Char) : List Char := s.flatMap encodeChar

def hexValue? (c : Char) : Option Nat :=
  if '0' ≤ c ∧ c ≤ '9' then some (c.toNat - '0'.toNat)
  else if 'a' ≤ c ∧ c ≤ 'f' then some (c.toNat - 'a'.toNat + 10)
  else if 'A' ≤ c ∧ c ≤ 'F' then some (c.toNat - 'A'.toNat + 10)
  else none

/-- The bytes that a run of ASCII characters writes; a percent sign without two hexadecimal
digits stands for itself. -/
def bytes : List Char → List UInt8
  | [] => []
  | '%' :: a :: b :: rest =>
    match hexValue? a, hexValue? b with
    | some high, some low => (high * 16 + low).toUInt8 :: bytes rest
    | _, _ => '%'.toNat.toUInt8 :: bytes (a :: b :: rest)
  | c :: rest => c.toNat.toUInt8 :: bytes rest

def isAscii (c : Char) : Bool := c.toNat < 0x80

/-- Reads run after run of ASCII characters; `run` is the run so far, in reverse. A character
beyond ASCII stands for itself and ends the run. -/
def decodeAfter : List Char → List Char → List Char
  | run, [] => Utf8.decodeLossy (bytes run.reverse)
  | run, c :: rest =>
    if isAscii c then decodeAfter (c :: run) rest
    else Utf8.decodeLossy (bytes run.reverse) ++ c :: decodeAfter [] rest

def decode (s : List Char) : List Char := decodeAfter [] s

/-! ## Reading what was written -/

theorem hexValue?_upperHex {n : Nat} (h : n < 16) : hexValue? (upperHex n) = some n := by
  decide +revert +kernel

theorem isUnreserved_upperHex {n : Nat} (h : n < 16) : isUnreserved (upperHex n) = true := by
  decide +revert +kernel

theorem bytes_escapeByte (b : UInt8) (rest : List Char) :
    bytes (escapeByte b ++ rest) = b :: bytes rest := by
  have hb : b.toNat < 256 := b.toNat_lt
  simp only [escapeByte, List.cons_append, List.nil_append, bytes,
    hexValue?_upperHex (show b.toNat / 16 < 16 by omega),
    hexValue?_upperHex (show b.toNat % 16 < 16 by omega)]
  rw [show b.toNat / 16 * 16 + b.toNat % 16 = b.toNat by omega]
  simp

theorem bytes_escapeBytes (bs : List UInt8) (rest : List Char) :
    bytes (bs.flatMap escapeByte ++ rest) = bs ++ bytes rest := by
  induction bs with
  | nil => rfl
  | cons b bs ih => rw [List.flatMap_cons, List.append_assoc, bytes_escapeByte, ih, List.cons_append]

theorem toNat_lt_of_isUnreserved {c : Char} (h : isUnreserved c = true) : c.toNat < 0x80 := by
  delta isUnreserved Char.isAlphanum Char.isAlpha Char.isUpper Char.isLower Char.isDigit at h
  simp only [Bool.or_eq_true, Bool.and_eq_true, decide_eq_true_eq, List.contains_iff_mem] at h
  rcases h with h | h
  · simp only [UInt32.le_iff_toNat_le] at h
    have : c.toNat = c.val.toNat := rfl
    simp at h
    omega
  · simp at h
    rcases h with rfl | rfl | rfl | rfl | rfl | rfl | rfl | rfl | rfl <;> decide

theorem ne_percent_of_isUnreserved {c : Char} (h : isUnreserved c = true) : c ≠ '%' := by
  rintro rfl
  exact absurd h (by decide)

theorem bytes_cons {c : Char} (h : c ≠ '%') (rest : List Char) :
    bytes (c :: rest) = c.toNat.toUInt8 :: bytes rest := by
  rw [bytes]
  exact fun _ _ _ he => absurd he h

theorem bytes_encodeChar (c : Char) (rest : List Char) :
    bytes (encodeChar c ++ rest) = Utf8.encodeChar c ++ bytes rest := by
  unfold encodeChar
  split
  · rename_i h
    rw [List.singleton_append, bytes_cons (ne_percent_of_isUnreserved h), Utf8.encodeChar,
      if_pos (toNat_lt_of_isUnreserved h), List.singleton_append]
  · exact bytes_escapeBytes _ rest

theorem bytes_encode (s : List Char) : bytes (encode s) = Utf8.encode s := by
  induction s with
  | nil => rfl
  | cons c rest ih =>
    rw [encode, List.flatMap_cons, bytes_encodeChar, ← encode, ih]
    rfl

theorem mem_escapeByte {c : Char} {b : UInt8} (h : c ∈ escapeByte b) :
    c = '%' ∨ isUnreserved c = true := by
  have hb : b.toNat < 256 := b.toNat_lt
  simp only [escapeByte, List.mem_cons, List.not_mem_nil, or_false] at h
  rcases h with rfl | rfl | rfl
  · exact Or.inl rfl
  · exact Or.inr (isUnreserved_upperHex (by omega))
  · exact Or.inr (isUnreserved_upperHex (by omega))

/-- Percent signs aside, only characters that stand for themselves are written. -/
theorem mem_encode {c : Char} {s : List Char} (h : c ∈ encode s) :
    c = '%' ∨ isUnreserved c = true := by
  obtain ⟨a, -, hc⟩ := List.mem_flatMap.1 h
  unfold encodeChar at hc
  split at hc
  · rename_i ha
    rw [List.mem_singleton.1 hc]
    exact Or.inr ha
  · obtain ⟨b, -, hb⟩ := List.mem_flatMap.1 hc
    exact mem_escapeByte hb

theorem isAscii_of_mem_encode {c : Char} {s : List Char} (h : c ∈ encode s) : isAscii c = true := by
  rcases mem_encode h with rfl | hc
  · decide
  · exact decide_eq_true (toNat_lt_of_isUnreserved hc)

theorem decodeAfter_of_isAscii (run s : List Char) (h : ∀ c ∈ s, isAscii c = true) :
    decodeAfter run s = Utf8.decodeLossy (bytes (run.reverse ++ s)) := by
  induction s generalizing run with
  | nil => rw [decodeAfter, List.append_nil]
  | cons c rest ih =>
    rw [decodeAfter, if_pos (h c List.mem_cons_self), ih _ fun a ha => h a (List.mem_cons_of_mem c ha)]
    simp

theorem decode_encode (s : List Char) : decode (encode s) = s := by
  rw [decode, decodeAfter_of_isAscii [] _ fun c => isAscii_of_mem_encode, List.reverse_nil,
    List.nil_append, bytes_encode, Utf8.decodeLossy_encode]

end BlockCheck.Text.Percent
