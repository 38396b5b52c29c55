import Landscape.Text.Utf8

/-!
# Texts are ordered like their bytes

Texts are compared character by character, and their UTF-8 bytes byte by byte.
Both come to the same, for UTF-8 was made so: longer characters start with larger
bytes, and among characters of one length the bytes are the digits of their
codes (`encode_lt`). No character begins with the bytes of another one, so what
comes behind the first difference does not matter.
-/

namespace Landscape.Text

/-! ## Bytes of a text -/

theorem toList_loop_eq (bytes : ByteArray) (i : Nat) (before : List UInt8) :
    ByteArray.toList.loop bytes i before = before.reverse ++ bytes.data.toList.drop i := by
  induction hk : bytes.size - i generalizing i before with
  | zero =>
      have hi : ¬i < bytes.size := by omega
      have hdrop : bytes.data.toList.length ≤ i := by simpa using Nat.le_of_not_lt hi
      rw [ByteArray.toList.loop, if_neg hi, List.drop_eq_nil_of_le hdrop, List.append_nil]
  | succ k ih =>
      have hi : i < bytes.size := by omega
      have hget : i < bytes.data.toList.length := by simpa using hi
      rw [ByteArray.toList.loop, if_pos hi, ih (i + 1) _ (by omega),
        List.drop_eq_getElem_cons hget]
      simp [ByteArray.get!, hi]

theorem utf8Bytes_eq (text : String) :
    utf8Bytes text = text.toList.flatMap String.utf8EncodeChar := by
  rw [utf8Bytes, ByteArray.toList, toList_loop_eq]
  conv => lhs; rw [← String.ofList_toList (s := text)]
  rw [String.toUTF8, String.toByteArray_ofList, List.utf8Encode, List.toList_data_toByteArray]
  rfl

/-! ## The order of characters -/

theorem byte_cons_lt_iff {m n : Nat} (hm : m < 256) (hn : n < 256) {s t : List UInt8} :
    UInt8.ofNat m :: s < UInt8.ofNat n :: t ↔ m < n ∨ m = n ∧ s < t := by
  rw [List.cons_lt_cons_iff, UInt8.lt_iff_toNat_lt, ← UInt8.toNat_inj,
    UInt8.toNat_ofNat_of_lt' hm, UInt8.toNat_ofNat_of_lt' hn]

/-- Of two numbers the smaller one has the smaller digits to the base 64. -/
theorem digits_lt {m n : Nat} (h : m < n) :
    m / 262144 < n / 262144 ∨ m / 262144 = n / 262144 ∧
      (m / 4096 % 64 < n / 4096 % 64 ∨ m / 4096 % 64 = n / 4096 % 64 ∧
        (m / 64 % 64 < n / 64 % 64 ∨ m / 64 % 64 = n / 64 % 64 ∧ m % 64 < n % 64)) := by
  have last {m n : Nat} (h : m < n) : m / 64 < n / 64 ∨ m / 64 = n / 64 ∧ m % 64 < n % 64 := by
    omega
  have quotients (k : Nat) : k / 4096 = k / 64 / 64 ∧ k / 262144 = k / 64 / 64 / 64 := by
    omega
  simp only [quotients]
  rcases last h with h | ⟨heq, hlast⟩
  · rcases last h with h | ⟨heq, hlast⟩
    · rcases last h with h | ⟨heq, hlast⟩
      · exact .inl h
      · exact .inr ⟨heq, .inl hlast⟩
    · exact .inr ⟨congrArg (· / 64) heq, .inr ⟨congrArg (· % 64) heq, .inl hlast⟩⟩
  · have heq' := congrArg (· / 64) heq
    exact .inr ⟨congrArg (· / 64) heq', .inr ⟨congrArg (· % 64) heq',
      .inr ⟨congrArg (· % 64) heq, hlast⟩⟩⟩

/-- The bytes of the smaller character are smaller, whatever comes behind them. -/
theorem encode_lt {c d : Char} (h : c < d) (s t : List UInt8) :
    String.utf8EncodeChar c ++ s < String.utf8EncodeChar d ++ t := by
  have hlt : c.val.toNat < d.val.toNat := h
  have hvalid : d.val.toNat < 0x110000 := by
    rcases d.valid with hd | hd <;> omega
  simp only [String.utf8EncodeChar]
  generalize c.val.toNat = m at *
  generalize d.val.toNat = n at *
  have hdigits := digits_lt hlt
  have hm : m / 262144 % 8 = m / 262144 := Nat.mod_eq_of_lt (by omega)
  have hn : n / 262144 % 8 = n / 262144 := Nat.mod_eq_of_lt (by omega)
  -- The codes tell both lengths, and the character of the smaller code is not the longer one.
  repeat' split
  all_goals
    first
    | omega
    | simp only [List.cons_append, List.nil_append]
      repeat rw [byte_cons_lt_iff (by omega) (by omega)]
      omega

/-! ## The order of texts -/

theorem flatMap_encode_lt {cs ds : List Char} (h : cs < ds) :
    cs.flatMap String.utf8EncodeChar < ds.flatMap String.utf8EncodeChar := by
  induction h with
  | @nil d ds =>
      obtain ⟨byte, bytes, hd⟩ : ∃ byte bytes, String.utf8EncodeChar d = byte :: bytes := by
        refine List.exists_cons_of_ne_nil fun hnil => ?_
        have hlength := congrArg List.length hnil
        rw [String.length_utf8EncodeChar] at hlength
        exact absurd hlength (Nat.ne_of_gt d.utf8Size_pos)
      rw [List.flatMap_nil, List.flatMap_cons, hd]
      exact List.nil_lt_cons _ _
  | @rel c cs d ds hlt =>
      rw [List.flatMap_cons, List.flatMap_cons]
      exact encode_lt hlt _ _
  | @cons c cs ds _ ih =>
      rw [List.flatMap_cons, List.flatMap_cons]
      exact List.append_left_lt ih

/-- One text comes before another one if its bytes do. -/
theorem utf8Bytes_lt_iff {a b : String} : utf8Bytes a < utf8Bytes b ↔ a < b := by
  have mono {a b : String} (h : a < b) : utf8Bytes a < utf8Bytes b := by
    rw [utf8Bytes_eq, utf8Bytes_eq]
    exact flatMap_encode_lt h
  refine ⟨fun hbytes => ?_, mono⟩
  by_cases hle : b ≤ a
  · rcases Classical.em (a = b) with rfl | hne
    · exact absurd hbytes (List.lt_irrefl _)
    · exact absurd hbytes (List.lt_asymm (mono (Std.lt_of_le_of_ne hle (Ne.symm hne))))
  · exact String.not_le.1 hle

end Landscape.Text
