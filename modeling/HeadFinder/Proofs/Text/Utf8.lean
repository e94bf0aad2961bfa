import HeadFinder.Text.Utf8

/-! # Reading what has been written as UTF-8

The bytes of a character are read as that character, whatever follows them: its first byte
announces as many more as there are, with bounds that the second one keeps.  So the bytes
of a text are read as the text.
-/
namespace HeadFinder.Text.Utf8

/-- The numbers of characters leave out the surrogates. -/
theorem number_cases (c : Char) :
    c.toNat < 0xD800 ∨ 0xDFFF < c.toNat ∧ c.toNat < 0x110000 := by
  have hvalid := c.valid
  simpa [UInt32.isValidChar, Nat.isValidChar] using hvalid

section Lead
variable {v : Nat}

theorem ofByte_two (h : 0x80 ≤ v) (h' : v ≤ 0x7FF) :
    Lead.ofByte (v / 64 % 32 + 0xC0) = .opens ⟨0, 0x80, 0xBF, v / 64⟩ := by
  unfold Lead.ofByte
  rw [if_neg (by omega), if_neg (by omega), if_pos (by omega),
    show v / 64 % 32 + 0xC0 - 0xC0 = v / 64 by omega]

/-- The first of three bytes bounds the second, which is within the bounds. -/
theorem ofByte_three (h : 0x800 ≤ v) (h' : v ≤ 0xFFFF) (hsurrogate : v < 0xD800 ∨ 0xDFFF < v) :
    ∃ low high, Lead.ofByte (v / 4096 % 16 + 0xE0) = .opens ⟨1, low, high, v / 4096⟩ ∧
      low ≤ v / 64 % 64 + 0x80 ∧ v / 64 % 64 + 0x80 ≤ high := by
  unfold Lead.ofByte
  rw [if_neg (by omega), if_neg (by omega), if_neg (by omega)]
  by_cases hfirst : v / 4096 = 0
  · rw [if_pos (by omega), hfirst]
    exact ⟨_, _, rfl, by omega, by omega⟩
  · rw [if_neg (by omega)]
    by_cases hgap : v / 4096 = 0xD
    · rw [if_pos (by omega), hgap]
      exact ⟨_, _, rfl, by omega, by omega⟩
    · rw [if_neg (by omega), if_pos (by omega),
        show v / 4096 % 16 + 0xE0 - 0xE0 = v / 4096 by omega]
      exact ⟨_, _, rfl, by omega, by omega⟩

theorem ofByte_four (h : 0x10000 ≤ v) (h' : v < 0x110000) :
    ∃ low high, Lead.ofByte (v / 262144 % 8 + 0xF0) = .opens ⟨2, low, high, v / 262144⟩ ∧
      low ≤ v / 4096 % 64 + 0x80 ∧ v / 4096 % 64 + 0x80 ≤ high := by
  unfold Lead.ofByte
  rw [if_neg (by omega), if_neg (by omega), if_neg (by omega), if_neg (by omega),
    if_neg (by omega), if_neg (by omega)]
  by_cases hfirst : v / 262144 = 0
  · rw [if_pos (by omega), hfirst]
    exact ⟨_, _, rfl, by omega, by omega⟩
  · rw [if_neg (by omega)]
    by_cases hlast : v / 262144 = 4
    · rw [if_neg (by omega), if_pos (by omega), hlast]
      exact ⟨_, _, rfl, by omega, by omega⟩
    · rw [if_pos (by omega), show v / 262144 % 8 + 0xF0 - 0xF0 = v / 262144 by omega]
      exact ⟨_, _, rfl, by omega, by omega⟩

end Lead

section Symbols
variable {n low high value more : Nat} {rest : List UInt8}

theorem toNat_ofNat_byte (h : n < 256) : (UInt8.ofNat n).toNat = n :=
  UInt8.toNat_ofNat_of_lt' h

theorem symbols_lead {pending : Pending} (hn : n < 256) (h : Lead.ofByte n = .opens pending) :
    symbols none (UInt8.ofNat n :: rest) = symbols (some pending) rest := by
  rw [symbols, toNat_ofNat_byte hn, h]

theorem symbols_more (hn : n < 256) (hlow : low ≤ n) (hhigh : n ≤ high) :
    symbols (some ⟨more + 1, low, high, value⟩) (UInt8.ofNat n :: rest) =
      symbols (some ⟨more, 0x80, 0xBF, value * 64 + (n - 0x80)⟩) rest := by
  rw [symbols, toNat_ofNat_byte hn]
  exact if_pos ⟨hlow, hhigh⟩

theorem symbols_last (hn : n < 256) (hlow : low ≤ n) (hhigh : n ≤ high) :
    symbols (some ⟨0, low, high, value⟩) (UInt8.ofNat n :: rest) =
      some (Char.ofNat (value * 64 + (n - 0x80))) :: symbols none rest := by
  rw [symbols, toNat_ofNat_byte hn]
  exact if_pos ⟨hlow, hhigh⟩

end Symbols

/-- **A character is read from its bytes.**  There is one case for each number of bytes. -/
theorem symbols_utf8EncodeChar (c : Char) (rest : List UInt8) :
    symbols none (String.utf8EncodeChar c ++ rest) = some c :: symbols none rest := by
  have hchar : Char.ofNat c.toNat = c := Char.ofNat_toNat c
  have hnumber := number_cases c
  have hval : c.val.toNat = c.toNat := rfl
  rw [String.utf8EncodeChar, hval]
  generalize c.toNat = v at hchar hnumber
  by_cases hone : v ≤ 0x7F
  · rw [if_pos hone, List.singleton_append, symbols, toNat_ofNat_byte (by omega), Lead.ofByte,
      if_pos (by omega), hchar]
  rw [if_neg hone]
  by_cases htwo : v ≤ 0x7FF
  · rw [if_pos htwo]
    simp only [List.cons_append, List.nil_append]
    rw [symbols_lead (by omega) (ofByte_two (by omega) htwo),
      symbols_last (by omega) (by omega) (by omega),
      show v / 64 * 64 + (v % 64 + 0x80 - 0x80) = v by omega, hchar]
  rw [if_neg htwo]
  by_cases hthree : v ≤ 0xFFFF
  · obtain ⟨low, high, hlead, hlow, hhigh⟩ :=
      ofByte_three (by omega) hthree (hnumber.imp_right And.left)
    rw [if_pos hthree]
    simp only [List.cons_append, List.nil_append]
    rw [symbols_lead (by omega) hlead, symbols_more (by omega) hlow hhigh,
      symbols_last (by omega) (by omega) (by omega),
      show (v / 4096 * 64 + (v / 64 % 64 + 0x80 - 0x80)) * 64 + (v % 64 + 0x80 - 0x80) = v by omega,
      hchar]
  · obtain ⟨low, high, hlead, hlow, hhigh⟩ := ofByte_four (by omega) (by omega : v < 0x110000)
    rw [if_neg hthree]
    simp only [List.cons_append, List.nil_append]
    rw [symbols_lead (by omega) hlead, symbols_more (by omega) hlow hhigh,
      symbols_more (by omega) (by omega) (by omega), symbols_last (by omega) (by omega) (by omega),
      show ((v / 262144 * 64 + (v / 4096 % 64 + 0x80 - 0x80)) * 64 +
        (v / 64 % 64 + 0x80 - 0x80)) * 64 + (v % 64 + 0x80 - 0x80) = v by omega, hchar]

theorem symbols_encode (cs : List Char) : symbols none (encode cs) = cs.map some := by
  induction cs with
  | nil => rfl
  | cons c rest ih =>
    rw [encode, List.flatMap_cons, symbols_utf8EncodeChar, List.map_cons]
    exact congrArg _ ih

/-- **The bytes of a text are read as the text.** -/
theorem decode_encode (cs : List Char) : decode (encode cs) = cs := by
  unfold decode
  rw [symbols_encode, List.map_map]
  exact List.map_id cs

/-- The bytes of a text are nothing but characters. -/
theorem decode?_encode (cs : List Char) : decode? (encode cs) = some cs := by
  unfold decode?
  rw [symbols_encode]
  induction cs with
  | nil => rfl
  | cons c rest ih => rw [List.map_cons, List.mapM_cons, ih]; rfl

/-! ## Bytes in an array -/

theorem toList_loop (bytes : ByteArray) (i : Nat) (done : List UInt8) :
    ByteArray.toList.loop bytes i done = done.reverse ++ bytes.data.toList.drop i := by
  fun_induction ByteArray.toList.loop bytes i done with
  | case1 i done hi ih =>
    have hlength : i < bytes.data.toList.length := by simpa using hi
    rw [ih, List.drop_eq_getElem_cons hlength]
    simp [ByteArray.get!, hi]
  | case2 i done hi =>
    rw [List.drop_eq_nil_of_le (by simpa using Nat.le_of_not_lt hi), List.append_nil]

/-- The bytes that a text is kept in are the ones that it is written in. -/
theorem toList_toUTF8 (text : String) : text.toUTF8.toList = encode text.toList := by
  obtain ⟨cs, rfl⟩ : ∃ cs, text = String.ofList cs := ⟨_, String.ofList_toList.symm⟩
  have hbytes : (String.ofList cs).toUTF8 = (encode cs).toByteArray := rfl
  rw [hbytes, ByteArray.toList, toList_loop, List.data_toByteArray, String.toList_ofList]
  rfl

end HeadFinder.Text.Utf8
