import BlockCheck.Text.Utf8

/-!
# Bytes that are a text

Reading succeeds on the bytes that some text is written in and on no others, so a text has one way to be
written.
-/

namespace BlockCheck.Text.Utf8

variable {b : UInt8} {bytes rest : List UInt8} {c : Char} {cs : List Char} {n : Nat}

theorem toNat_ofNat (h : n < 0xD800 ∨ 0xDFFF < n ∧ n < 0x110000) : (Char.ofNat n).toNat = n := by
  rw [Char.ofNat, dif_pos h]
  rfl

theorem toUInt8_eq (h : n = b.toNat) : n.toUInt8 = b := by
  rw [h]
  exact UInt8.ofNat_toNat

/-! ## One character -/

theorem encodeChar_one (hb : b.toNat < 0x80) : encodeChar (Char.ofNat b.toNat) = [b] := by
  have hn : (Char.ofNat b.toNat).toNat = b.toNat := toNat_ofNat (by omega)
  rw [encodeChar, hn]
  rw [if_pos hb, toUInt8_eq rfl]

theorem encodeChar_two {c : UInt8} (hlow : 0xC2 ≤ b.toNat) (hhigh : b.toNat < 0xE0)
    (hc : isContinuation c = true) :
    encodeChar (Char.ofNat (codePoint (b.toNat - 0xC0) [c])) = [b, c] := by
  rw [isContinuation_iff] at hc
  have hpoint : codePoint (b.toNat - 0xC0) [c] = (b.toNat - 0xC0) * 0x40 + (c.toNat - 0x80) := rfl
  rw [hpoint, encodeChar, toNat_ofNat (by omega)]
  rw [if_neg (by omega), if_pos (by omega), toUInt8_eq (b := b) (by omega), toUInt8_eq (b := c) (by omega)]

theorem encodeChar_three {c d : UInt8} (hlow : 0xE0 ≤ b.toNat) (hhigh : b.toNat < 0xF0)
    (hc : isSecond b c = true) (hd : isContinuation d = true) :
    encodeChar (Char.ofNat (codePoint (b.toNat - 0xE0) [c, d])) = [b, c, d] := by
  rw [isSecond_iff] at hc
  rw [isContinuation_iff] at hd
  have hpoint : codePoint (b.toNat - 0xE0) [c, d] =
      ((b.toNat - 0xE0) * 0x40 + (c.toNat - 0x80)) * 0x40 + (d.toNat - 0x80) := rfl
  rw [hpoint, encodeChar, toNat_ofNat (by omega)]
  rw [if_neg (by omega), if_neg (by omega), if_pos (by omega), toUInt8_eq (b := b) (by omega),
    toUInt8_eq (b := c) (by omega), toUInt8_eq (b := d) (by omega)]

theorem encodeChar_four {c d e : UInt8} (hlow : 0xF0 ≤ b.toNat) (hhigh : b.toNat < 0xF5)
    (hc : isSecond b c = true) (hd : isContinuation d = true) (he : isContinuation e = true) :
    encodeChar (Char.ofNat (codePoint (b.toNat - 0xF0) [c, d, e])) = [b, c, d, e] := by
  rw [isSecond_iff] at hc
  rw [isContinuation_iff] at hd he
  have hpoint : codePoint (b.toNat - 0xF0) [c, d, e] =
      (((b.toNat - 0xF0) * 0x40 + (c.toNat - 0x80)) * 0x40 + (d.toNat - 0x80)) * 0x40 +
        (e.toNat - 0x80) := rfl
  rw [hpoint, encodeChar, toNat_ofNat (by omega)]
  rw [if_neg (by omega), if_neg (by omega), if_neg (by omega), toUInt8_eq (b := b) (by omega),
    toUInt8_eq (b := c) (by omega), toUInt8_eq (b := d) (by omega), toUInt8_eq (b := e) (by omega)]

theorem char_inj {a : Char} {m : Nat} (h : (Piece.char a, m) = (Piece.char c, n)) : a = c ∧ m = n := by
  injection h with hchar hn
  injection hchar with hchar
  exact ⟨hchar, hn⟩

theorem encodeChar_of_piece_two (hlow : 0xC2 ≤ b.toNat) (hhigh : b.toNat < 0xE0)
    (h : piece b rest = (.char c, n)) : encodeChar c = b :: rest.take n := by
  unfold piece at h
  rw [if_neg (by simp [UInt8.lt_iff_toNat_lt]; omega), if_neg (by simp [UInt8.lt_iff_toNat_lt]; omega),
    if_pos (by simp [UInt8.lt_iff_toNat_lt]; omega)] at h
  cases rest with
  | nil => cases h
  | cons second rest =>
    dsimp only at h
    by_cases hsecond : isContinuation second = true
    · rw [if_pos hsecond] at h
      obtain ⟨rfl, rfl⟩ := char_inj h
      exact encodeChar_two hlow hhigh hsecond
    · rw [if_neg hsecond] at h
      cases h

theorem encodeChar_of_piece_three (hlow : 0xE0 ≤ b.toNat) (hhigh : b.toNat < 0xF0)
    (h : piece b rest = (.char c, n)) : encodeChar c = b :: rest.take n := by
  unfold piece at h
  rw [if_neg (by simp [UInt8.lt_iff_toNat_lt]; omega), if_neg (by simp [UInt8.lt_iff_toNat_lt]; omega),
    if_neg (by simp [UInt8.lt_iff_toNat_lt]; omega), if_pos (by simp [UInt8.lt_iff_toNat_lt]; omega)] at h
  cases rest with
  | nil => cases h
  | cons second rest =>
    dsimp only at h
    by_cases hsecond : isSecond b second = true
    · rw [if_pos hsecond] at h
      cases rest with
      | nil => cases h
      | cons third rest =>
        dsimp only at h
        by_cases hthird : isContinuation third = true
        · rw [if_pos hthird] at h
          obtain ⟨rfl, rfl⟩ := char_inj h
          exact encodeChar_three hlow hhigh hsecond hthird
        · rw [if_neg hthird] at h
          cases h
    · rw [if_neg hsecond] at h
      cases h

theorem encodeChar_of_piece_four (hlow : 0xF0 ≤ b.toNat) (hhigh : b.toNat < 0xF5)
    (h : piece b rest = (.char c, n)) : encodeChar c = b :: rest.take n := by
  unfold piece at h
  rw [if_neg (by simp [UInt8.lt_iff_toNat_lt]; omega), if_neg (by simp [UInt8.lt_iff_toNat_lt]; omega),
    if_neg (by simp [UInt8.lt_iff_toNat_lt]; omega), if_neg (by simp [UInt8.lt_iff_toNat_lt]; omega),
    if_pos (by simp [UInt8.lt_iff_toNat_lt]; omega)] at h
  cases rest with
  | nil => cases h
  | cons second rest =>
    dsimp only at h
    by_cases hsecond : isSecond b second = true
    · rw [if_pos hsecond] at h
      cases rest with
      | nil => cases h
      | cons third rest =>
        dsimp only at h
        by_cases hthird : isContinuation third = true
        · rw [if_pos hthird] at h
          cases rest with
          | nil => cases h
          | cons fourth rest =>
            dsimp only at h
            by_cases hfourth : isContinuation fourth = true
            · rw [if_pos hfourth] at h
              obtain ⟨rfl, rfl⟩ := char_inj h
              exact encodeChar_four hlow hhigh hsecond hthird hfourth
            · rw [if_neg hfourth] at h
              cases h
        · rw [if_neg hthird] at h
          cases h
    · rw [if_neg hsecond] at h
      cases h

theorem piece_ne_char (h : 0x80 ≤ b.toNat ∧ b.toNat < 0xC2 ∨ 0xF5 ≤ b.toNat) :
    piece b rest ≠ (.char c, n) := by
  intro hpiece
  unfold piece at hpiece
  rw [if_neg (by simp [UInt8.lt_iff_toNat_lt]; omega)] at hpiece
  rcases h with ⟨-, h⟩ | h
  · rw [if_pos (by simp [UInt8.lt_iff_toNat_lt]; omega)] at hpiece
    cases hpiece
  · rw [if_neg (by simp [UInt8.lt_iff_toNat_lt]; omega), if_neg (by simp [UInt8.lt_iff_toNat_lt]; omega),
      if_neg (by simp [UInt8.lt_iff_toNat_lt]; omega), if_neg (by simp [UInt8.lt_iff_toNat_lt]; omega)] at hpiece
    cases hpiece

theorem encodeChar_of_piece (h : piece b rest = (.char c, n)) : encodeChar c = b :: rest.take n := by
  rcases Nat.lt_or_ge b.toNat 0x80 with hone | hone
  · rw [piece_one hone] at h
    obtain ⟨rfl, rfl⟩ := char_inj h
    exact encodeChar_one hone
  rcases Nat.lt_or_ge b.toNat 0xC2 with hlow | hlow
  · exact absurd h (piece_ne_char (Or.inl ⟨hone, hlow⟩))
  rcases Nat.lt_or_ge b.toNat 0xE0 with htwo | htwo
  · exact encodeChar_of_piece_two hlow htwo h
  rcases Nat.lt_or_ge b.toNat 0xF0 with hthree | hthree
  · exact encodeChar_of_piece_three htwo hthree h
  rcases Nat.lt_or_ge b.toNat 0xF5 with hfour | hfour
  · exact encodeChar_of_piece_four hthree hfour h
  · exact absurd h (piece_ne_char (Or.inr hfour))

/-! ## A whole text -/

theorem decodeFrom_skip (offset n : Nat) (bytes : List UInt8) :
    decodeFrom offset n bytes = decodeFrom (offset + min n bytes.length) 0 (bytes.drop n) := by
  induction n generalizing offset bytes with
  | zero => simp
  | succ n ih =>
    cases bytes with
    | nil => simp [decodeFrom]
    | cons b rest =>
      rw [decodeFrom, ih, List.drop_succ_cons, List.length_cons]
      congr 1
      omega

theorem decodeFrom_of_piecesAfter {offset skip : Nat} (h : piecesAfter skip bytes = cs.map .char) :
    decodeFrom offset skip bytes = .ok cs := by
  induction bytes generalizing offset skip cs with
  | nil =>
    rw [piecesAfter] at h
    rw [decodeFrom, List.map_eq_nil_iff.1 h.symm]
  | cons b rest ih =>
    cases skip with
    | succ skip => exact ih h
    | zero =>
      cases cs with
      | nil => cases h
      | cons c cs =>
        rcases hpiece : piece b rest with ⟨found, more⟩
        rw [piecesAfter, hpiece, List.map_cons] at h
        obtain ⟨rfl, hrest⟩ := List.cons.inj h
        rw [decodeFrom, hpiece]
        dsimp only
        rw [ih hrest]
        rfl

theorem piecesAfter_encode (cs : List Char) : piecesAfter 0 (encode cs) = cs.map .char := by
  induction cs with
  | nil => rfl
  | cons c cs ih => rw [encode, List.flatMap_cons, piecesAfter_encodeChar, ← encode, ih, List.map_cons]

theorem encode_of_decodeFrom {offset : Nat} (h : decodeFrom offset 0 bytes = .ok cs) : encode cs = bytes := by
  -- On the length, since a character can take up several bytes.
  induction hlength : bytes.length using Nat.strongRecOn generalizing offset bytes cs with
  | _ length ih =>
    cases bytes with
    | nil =>
      cases h
      rfl
    | cons b rest =>
      rw [decodeFrom] at h
      split at h
      · rename_i c n hpiece
        rw [decodeFrom_skip] at h
        cases hrest : decodeFrom (offset + 1 + min n rest.length) 0 (rest.drop n) with
        | error fault =>
          rw [hrest] at h
          cases h
        | ok more =>
          rw [hrest] at h
          cases h
          have hshorter : (rest.drop n).length < length := by
            rw [← hlength, List.length_drop, List.length_cons]
            omega
          have hmore := ih (rest.drop n).length hshorter hrest rfl
          rw [encode, List.flatMap_cons, ← encode, hmore, encodeChar_of_piece hpiece, List.cons_append,
            List.take_append_drop]
      · cases h

theorem decode_eq_ok_iff : decode bytes = .ok cs ↔ bytes = encode cs := by
  constructor
  · intro h
    exact (encode_of_decodeFrom h).symm
  · rintro rfl
    exact decodeFrom_of_piecesAfter (piecesAfter_encode cs)

end BlockCheck.Text.Utf8
