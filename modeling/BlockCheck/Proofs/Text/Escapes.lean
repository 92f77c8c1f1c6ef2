import BlockCheck.Proofs.Text.ValidUtf8
import BlockCheck.Text.Percent
import Mathlib.Data.List.Basic

/-!
# Texts with escapes

What percent encoding writes is cut into characters that stand for themselves and runs of escapes. Each
run is valid UTF-8, and none of its characters could stand for itself.
-/

namespace BlockCheck.Text.Percent

variable {cs s rest : List Char}

def upperHexDigits : List Char := "0123456789ABCDEF".toList

inductive Escaped : List Char → Prop
  | nil : Escaped []
  | plain {c : Char} {rest : List Char} (hc : isUnreserved c = true) (hrest : Escaped rest) :
      Escaped (c :: rest)
  | escape {high low : Char} {rest : List Char} (hhigh : high ∈ upperHexDigits)
      (hlow : low ∈ upperHexDigits) (hrest : Escaped rest) : Escaped ('%' :: high :: low :: rest)

/-- The bytes of each run of escapes are a text, and all of its characters must be escaped. -/
inductive Canonical : List Char → Prop
  | nil : Canonical []
  | plain {c : Char} {rest : List Char} (hc : isUnreserved c = true) (hrest : Canonical rest) :
      Canonical (c :: rest)
  | run {bytes : List UInt8} {cs rest : List Char} (hbytes : Utf8.decode bytes = .ok cs)
      (hcs : ∀ c ∈ cs, isUnreserved c = false) (hrest : Canonical rest) :
      Canonical (bytes.flatMap escapeByte ++ rest)

theorem upperHex_mem {n : Nat} (h : n < 16) : upperHex n ∈ upperHexDigits := by
  decide +revert +kernel

theorem Escaped.escapeBytes (h : Escaped rest) (bytes : List UInt8) :
    Escaped (bytes.flatMap escapeByte ++ rest) := by
  induction bytes with
  | nil => exact h
  | cons b more ih =>
    have hb : b.toNat < 256 := b.toNat_lt
    rw [List.flatMap_cons, List.append_assoc]
    exact .escape (upperHex_mem (by omega)) (upperHex_mem (by omega)) ih

theorem Canonical.escaped (h : Canonical s) : Escaped s := by
  induction h with
  | nil => exact .nil
  | plain hc _ ih => exact .plain hc ih
  | run _ _ _ ih => exact ih.escapeBytes _

theorem encode_of_escaped (h : ∀ c ∈ cs, isUnreserved c = false) :
    encode cs = (Utf8.encode cs).flatMap escapeByte := by
  rw [encode, Utf8.encode, List.flatMap_assoc]
  refine List.flatMap_congr fun c hc => ?_
  rw [encodeChar, if_neg (by simp [h c hc])]

theorem canonical_encode (s : List Char) : Canonical (encode s) := by
  induction s with
  | nil => exact .nil
  | cons c rest ih =>
    rw [encode, List.flatMap_cons, encodeChar]
    split
    · rename_i hc
      exact .plain hc ih
    · -- Each character that is escaped makes a run of its own.
      rename_i hc
      refine @Canonical.run _ [c] _ (Utf8.decode_eq_ok_iff.2 ?_) (by simpa using hc) ih
      rw [Utf8.encode, List.flatMap_singleton]

theorem Canonical.exists_encode (h : Canonical s) : ∃ cs, encode cs = s := by
  induction h with
  | nil => exact ⟨[], rfl⟩
  | @plain c rest hc _ ih =>
    obtain ⟨cs, rfl⟩ := ih
    refine ⟨c :: cs, ?_⟩
    rw [encode, List.flatMap_cons, encodeChar, if_pos hc]
    rfl
  | @run bytes front rest hbytes hfront _ ih =>
    obtain ⟨cs, rfl⟩ := ih
    refine ⟨front ++ cs, ?_⟩
    rw [Utf8.decode_eq_ok_iff.1 hbytes, ← encode_of_escaped hfront]
    exact List.flatMap_append

end BlockCheck.Text.Percent
