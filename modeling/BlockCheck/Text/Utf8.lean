/-!
# UTF-8

A text as bytes. Bytes are read piece by piece: a piece is a character, or a run of bytes that
starts none. A faulty run is as long as a character could still have followed, so that the byte
after it is read anew.
-/

namespace BlockCheck.Text.Utf8

inductive Cause where
  | startByte
  | continuationByte
  | unexpectedEnd
deriving DecidableEq, Repr

inductive Piece where
  | char (c : Char)
  | fault (cause : Cause) (size : Nat)
deriving DecidableEq, Repr

structure Fault where
  offset : Nat
  size : Nat
  byte : UInt8
  cause : Cause
deriving DecidableEq, Repr

/-! ## Writing -/

def encodeChar (c : Char) : List UInt8 :=
  let n := c.toNat
  if n < 0x80 then [n.toUInt8]
  else if n < 0x800 then [(0xC0 + n / 0x40).toUInt8, (0x80 + n % 0x40).toUInt8]
  else if n < 0x10000 then
    [(0xE0 + n / 0x1000).toUInt8, (0x80 + n / 0x40 % 0x40).toUInt8, (0x80 + n % 0x40).toUInt8]
  else
    [(0xF0 + n / 0x40000).toUInt8, (0x80 + n / 0x1000 % 0x40).toUInt8,
      (0x80 + n / 0x40 % 0x40).toUInt8, (0x80 + n % 0x40).toUInt8]

def encode (s : List Char) : List UInt8 := s.flatMap encodeChar

/-! ## Reading -/

def isContinuation (b : UInt8) : Bool := 0x80 ≤ b && b < 0xC0

/-- The bytes that may follow the first byte of a character of three or four bytes. They rule out
what is written longer than needed, the surrogates, and what lies beyond the last character. -/
def isSecond (first second : UInt8) : Bool :=
  if first = 0xE0 then 0xA0 ≤ second && second < 0xC0
  else if first = 0xED then 0x80 ≤ second && second < 0xA0
  else if first = 0xF0 then 0x90 ≤ second && second < 0xC0
  else if first = 0xF4 then 0x80 ≤ second && second < 0x90
  else isContinuation second

/-- The value of a lead byte and of the bytes that continue it. -/
def codePoint (lead : Nat) (tail : List UInt8) : Nat :=
  tail.foldl (fun n b => n * 0x40 + (b.toNat - 0x80)) lead

/-- The piece that starts with byte `b`, and the number of its bytes after `b`. -/
def piece (b : UInt8) (rest : List UInt8) : Piece × Nat :=
  if b < 0x80 then (.char (Char.ofNat b.toNat), 0)
  else if b < 0xC2 then (.fault .startByte 1, 0)
  else if b < 0xE0 then
    match rest with
    | [] => (.fault .unexpectedEnd 1, 0)
    | c :: _ =>
      if isContinuation c then (.char (Char.ofNat (codePoint (b.toNat - 0xC0) [c])), 1)
      else (.fault .continuationByte 1, 0)
  else if b < 0xF0 then
    match rest with
    | [] => (.fault .unexpectedEnd 1, 0)
    | c :: rest =>
      if isSecond b c then
        match rest with
        | [] => (.fault .unexpectedEnd 2, 1)
        | d :: _ =>
          if isContinuation d then (.char (Char.ofNat (codePoint (b.toNat - 0xE0) [c, d])), 2)
          else (.fault .continuationByte 2, 1)
      else (.fault .continuationByte 1, 0)
  else if b < 0xF5 then
    match rest with
    | [] => (.fault .unexpectedEnd 1, 0)
    | c :: rest =>
      if isSecond b c then
        match rest with
        | [] => (.fault .unexpectedEnd 2, 1)
        | d :: rest =>
          if isContinuation d then
            match rest with
            | [] => (.fault .unexpectedEnd 3, 2)
            | e :: _ =>
              if isContinuation e then
                (.char (Char.ofNat (codePoint (b.toNat - 0xF0) [c, d, e])), 3)
              else (.fault .continuationByte 3, 2)
          else (.fault .continuationByte 2, 1)
      else (.fault .continuationByte 1, 0)
  else (.fault .startByte 1, 0)

def piecesAfter : Nat → List UInt8 → List Piece
  | _, [] => []
  | skip + 1, _ :: rest => piecesAfter skip rest
  | 0, b :: rest =>
    let (p, more) := piece b rest
    p :: piecesAfter more rest

def pieces (bytes : List UInt8) : List Piece := piecesAfter 0 bytes

/-- Each faulty run becomes one replacement character. -/
def decodeLossy (bytes : List UInt8) : List Char :=
  (pieces bytes).map fun
    | .char c => c
    | .fault _ _ => '\ufffd'

/-- The text, or the first fault; `offset` bytes were read before. -/
def decodeFrom : Nat → Nat → List UInt8 → Except Fault (List Char)
  | _, _, [] => .ok []
  | offset, skip + 1, _ :: rest => decodeFrom (offset + 1) skip rest
  | offset, 0, b :: rest =>
    match piece b rest with
    | (.char c, more) => (decodeFrom (offset + 1) more rest).map (c :: ·)
    | (.fault cause size, _) => .error ⟨offset, size, b, cause⟩

def decode (bytes : List UInt8) : Except Fault (List Char) := decodeFrom 0 0 bytes

/-! ## Reading what was written

A character of one to four bytes is read back, whatever follows it.
-/

theorem isContinuation_iff {b : UInt8} :
    isContinuation b = true ↔ 0x80 ≤ b.toNat ∧ b.toNat < 0xC0 := by
  simp [isContinuation, UInt8.le_iff_toNat_le, UInt8.lt_iff_toNat_lt]

theorem isSecond_iff {first second : UInt8} :
    isSecond first second = true ↔
      0x80 ≤ second.toNat ∧ second.toNat < 0xC0 ∧
      (first.toNat = 0xE0 → 0xA0 ≤ second.toNat) ∧ (first.toNat = 0xED → second.toNat < 0xA0) ∧
      (first.toNat = 0xF0 → 0x90 ≤ second.toNat) ∧ (first.toNat = 0xF4 → second.toNat < 0x90) := by
  simp only [isSecond, ← UInt8.toNat_inj]
  repeat' split
  all_goals simp_all [isContinuation_iff, UInt8.le_iff_toNat_le, UInt8.lt_iff_toNat_lt]
  all_goals omega

theorem piece_one {b : UInt8} (h : b.toNat < 0x80) (rest : List UInt8) :
    piece b rest = (.char (Char.ofNat b.toNat), 0) := by
  unfold piece
  rw [if_pos (UInt8.lt_iff_toNat_lt.2 h)]

theorem piece_two {b c : UInt8} (hlow : 0xC2 ≤ b.toNat) (hhigh : b.toNat < 0xE0)
    (hc : isContinuation c = true) (rest : List UInt8) :
    piece b (c :: rest) = (.char (Char.ofNat (codePoint (b.toNat - 0xC0) [c])), 1) := by
  unfold piece
  rw [if_neg (by simp [UInt8.lt_iff_toNat_lt]; omega), if_neg (by simp [UInt8.lt_iff_toNat_lt]; omega),
    if_pos (by simp [UInt8.lt_iff_toNat_lt]; omega)]
  simp [hc]

theorem piece_three {b c d : UInt8} (hlow : 0xE0 ≤ b.toNat) (hhigh : b.toNat < 0xF0)
    (hc : isSecond b c = true) (hd : isContinuation d = true) (rest : List UInt8) :
    piece b (c :: d :: rest) = (.char (Char.ofNat (codePoint (b.toNat - 0xE0) [c, d])), 2) := by
  unfold piece
  rw [if_neg (by simp [UInt8.lt_iff_toNat_lt]; omega), if_neg (by simp [UInt8.lt_iff_toNat_lt]; omega),
    if_neg (by simp [UInt8.lt_iff_toNat_lt]; omega), if_pos (by simp [UInt8.lt_iff_toNat_lt]; omega)]
  simp [hc, hd]

theorem piece_four {b c d e : UInt8} (hlow : 0xF0 ≤ b.toNat) (hhigh : b.toNat < 0xF5)
    (hc : isSecond b c = true) (hd : isContinuation d = true) (he : isContinuation e = true)
    (rest : List UInt8) :
    piece b (c :: d :: e :: rest) =
      (.char (Char.ofNat (codePoint (b.toNat - 0xF0) [c, d, e])), 3) := by
  unfold piece
  rw [if_neg (by simp [UInt8.lt_iff_toNat_lt]; omega), if_neg (by simp [UInt8.lt_iff_toNat_lt]; omega),
    if_neg (by simp [UInt8.lt_iff_toNat_lt]; omega), if_neg (by simp [UInt8.lt_iff_toNat_lt]; omega),
    if_pos (by simp [UInt8.lt_iff_toNat_lt]; omega)]
  simp [hc, hd, he]

theorem toNat_toUInt8 {n : Nat} (h : n < 0x100) : n.toUInt8.toNat = n := by
  simp [Nat.mod_eq_of_lt h]

theorem piecesAfter_one {n : Nat} (h : n < 0x80) (rest : List UInt8) :
    piecesAfter 0 (n.toUInt8 :: rest) = .char (Char.ofNat n) :: piecesAfter 0 rest := by
  have hn : n.toUInt8.toNat = n := toNat_toUInt8 (by omega)
  rw [piecesAfter, piece_one (by omega), hn]

theorem piecesAfter_two {n : Nat} (hlow : 0x80 ≤ n) (hhigh : n < 0x800) (rest : List UInt8) :
    piecesAfter 0 ((0xC0 + n / 0x40).toUInt8 :: (0x80 + n % 0x40).toUInt8 :: rest) =
      .char (Char.ofNat n) :: piecesAfter 0 rest := by
  have hb : (0xC0 + n / 0x40).toUInt8.toNat = 0xC0 + n / 0x40 := toNat_toUInt8 (by omega)
  have hc : (0x80 + n % 0x40).toUInt8.toNat = 0x80 + n % 0x40 := toNat_toUInt8 (by omega)
  have hpoint : codePoint (0xC0 + n / 0x40 - 0xC0) [(0x80 + n % 0x40).toUInt8] = n := by
    simp only [codePoint, List.foldl_cons, List.foldl_nil, hc]
    omega
  rw [piecesAfter, piece_two (by omega) (by omega) (isContinuation_iff.2 (by omega)), hb, hpoint]
  rfl

theorem piecesAfter_three {n : Nat} (hlow : 0x800 ≤ n) (hhigh : n < 0x10000)
    (hvalid : n < 0xD800 ∨ 0xDFFF < n) (rest : List UInt8) :
    piecesAfter 0 ((0xE0 + n / 0x1000).toUInt8 :: (0x80 + n / 0x40 % 0x40).toUInt8 ::
        (0x80 + n % 0x40).toUInt8 :: rest) =
      .char (Char.ofNat n) :: piecesAfter 0 rest := by
  have hb : (0xE0 + n / 0x1000).toUInt8.toNat = 0xE0 + n / 0x1000 := toNat_toUInt8 (by omega)
  have hc : (0x80 + n / 0x40 % 0x40).toUInt8.toNat = 0x80 + n / 0x40 % 0x40 :=
    toNat_toUInt8 (by omega)
  have hd : (0x80 + n % 0x40).toUInt8.toNat = 0x80 + n % 0x40 := toNat_toUInt8 (by omega)
  have hpoint : codePoint (0xE0 + n / 0x1000 - 0xE0)
      [(0x80 + n / 0x40 % 0x40).toUInt8, (0x80 + n % 0x40).toUInt8] = n := by
    simp only [codePoint, List.foldl_cons, List.foldl_nil, hc, hd]
    omega
  rw [piecesAfter, piece_three (by omega) (by omega)
    (isSecond_iff.2 (by omega)) (isContinuation_iff.2 (by omega)), hb, hpoint]
  rfl

theorem piecesAfter_four {n : Nat} (hlow : 0x10000 ≤ n) (hhigh : n < 0x110000) (rest : List UInt8) :
    piecesAfter 0 ((0xF0 + n / 0x40000).toUInt8 :: (0x80 + n / 0x1000 % 0x40).toUInt8 ::
        (0x80 + n / 0x40 % 0x40).toUInt8 :: (0x80 + n % 0x40).toUInt8 :: rest) =
      .char (Char.ofNat n) :: piecesAfter 0 rest := by
  have hb : (0xF0 + n / 0x40000).toUInt8.toNat = 0xF0 + n / 0x40000 := toNat_toUInt8 (by omega)
  have hc : (0x80 + n / 0x1000 % 0x40).toUInt8.toNat = 0x80 + n / 0x1000 % 0x40 :=
    toNat_toUInt8 (by omega)
  have hd : (0x80 + n / 0x40 % 0x40).toUInt8.toNat = 0x80 + n / 0x40 % 0x40 :=
    toNat_toUInt8 (by omega)
  have he : (0x80 + n % 0x40).toUInt8.toNat = 0x80 + n % 0x40 := toNat_toUInt8 (by omega)
  have hpoint : codePoint (0xF0 + n / 0x40000 - 0xF0) [(0x80 + n / 0x1000 % 0x40).toUInt8,
      (0x80 + n / 0x40 % 0x40).toUInt8, (0x80 + n % 0x40).toUInt8] = n := by
    simp only [codePoint, List.foldl_cons, List.foldl_nil, hc, hd, he]
    omega
  rw [piecesAfter, piece_four (by omega) (by omega) (isSecond_iff.2 (by omega))
    (isContinuation_iff.2 (by omega)) (isContinuation_iff.2 (by omega)), hb, hpoint]
  rfl

theorem piecesAfter_encodeChar (c : Char) (rest : List UInt8) :
    piecesAfter 0 (encodeChar c ++ rest) = .char c :: piecesAfter 0 rest := by
  have hvalid : c.toNat < 0xD800 ∨ 0xDFFF < c.toNat ∧ c.toNat < 0x110000 := c.valid
  have hback : Char.ofNat c.toNat = c := Char.ofNat_toNat c
  simp only [encodeChar]
  split
  · rw [List.singleton_append, piecesAfter_one (by omega), hback]
  split
  · rw [List.cons_append, List.singleton_append, piecesAfter_two (by omega) (by omega), hback]
  split
  · simp only [List.cons_append, List.nil_append]
    rw [piecesAfter_three (by omega) (by omega) (by omega), hback]
  · simp only [List.cons_append, List.nil_append]
    rw [piecesAfter_four (by omega) (by omega), hback]

theorem decodeLossy_encode (s : List Char) : decodeLossy (encode s) = s := by
  unfold decodeLossy pieces encode
  induction s with
  | nil => rfl
  | cons c rest ih => rw [List.flatMap_cons, piecesAfter_encodeChar, List.map_cons, ih]

/-! ## Wording -/

def Cause.text : Cause → String
  | .startByte => "invalid start byte"
  | .continuationByte => "invalid continuation byte"
  | .unexpectedEnd => "unexpected end of data"

def hexDigits (b : UInt8) : String :=
  String.ofList [Nat.digitChar (b.toNat / 16), Nat.digitChar (b.toNat % 16)]

def Fault.message (fault : Fault) : String :=
  "'utf-8' codec can't decode byte" ++
    (if fault.size = 1 then " 0x" ++ hexDigits fault.byte ++ " in position " ++ toString fault.offset
      else "s in position " ++ toString fault.offset ++ "-" ++ toString (fault.offset + fault.size - 1))
    ++ ": " ++ fault.cause.text

end BlockCheck.Text.Utf8
