import HeadFinder.Proofs.Join
import HeadFinder.Proofs.Text.Utf8
import HeadFinder.Text.Percent

/-! # Reading what has been percent-encoded

An encoded text is a row of plain characters and of bytes in digits; a reader meets just
these (`tokens_encodeChars`), and so it gets the text back.  Encoding goes character by
character and brings in no slash, so that the segments of an encoded path are the encoded
segments of the path.
-/
namespace HeadFinder.Text.Percent

/-! ## Digits -/

theorem hexValue?_upperHexDigit : ∀ n < 16, hexValue? (upperHexDigit n) = some n := by
  decide

theorem upperHexDigit_ne_slash : ∀ n < 16, upperHexDigit n ≠ '/' := by
  decide

theorem isPlain_upperHexDigit : ∀ n < 16, isPlain (upperHexDigit n) = true := by
  decide

/-- A byte is read from its digits. -/
theorem tokens_octet (b : UInt8) (rest : List Char) :
    tokens (octet b ++ rest) = .byte b :: tokens rest := by
  have hb := b.toNat_lt
  have hhigh := hexValue?_upperHexDigit (b.toNat / 16) (by omega)
  have hlow := hexValue?_upperHexDigit (b.toNat % 16) (by omega)
  simp only [octet, List.cons_append, List.nil_append]
  rw [tokens, hhigh, hlow]
  dsimp only
  rw [show b.toNat / 16 * 16 + b.toNat % 16 = b.toNat by omega, UInt8.ofNat_toNat]

theorem tokens_octets (bytes : List UInt8) (rest : List Char) :
    tokens (bytes.flatMap octet ++ rest) = bytes.map .byte ++ tokens rest := by
  induction bytes with
  | nil => rfl
  | cons b bytes ih =>
    rw [List.flatMap_cons, List.append_assoc, tokens_octet, ih, List.map_cons, List.cons_append]

/-- A plain character is read as itself. -/
theorem tokens_plain {c : Char} (h : isPlain c = true) (rest : List Char) :
    tokens (c :: rest) = .char c :: tokens rest := by
  have hpercent : c ≠ '%' := by
    rintro rfl
    revert h
    decide
  rw [tokens]
  exact fun _ _ _ heq => absurd heq hpercent

/-! ## Texts -/

/-- What a reader meets in an encoded text. -/
def encodedTokens (cs : List Char) : List Token :=
  cs.flatMap fun c => if isPlain c then [.char c] else (String.utf8EncodeChar c).map .byte

theorem tokens_encodeChars (cs : List Char) : tokens (encodeChars cs) = encodedTokens cs := by
  induction cs with
  | nil => rfl
  | cons c rest ih =>
    unfold encodeChars encodedTokens at *
    rw [List.flatMap_cons, List.flatMap_cons]
    by_cases hplain : isPlain c = true
    · rw [if_pos hplain, if_pos hplain, List.singleton_append, tokens_plain hplain, ih]
      rfl
    · rw [if_neg hplain, if_neg hplain, tokens_octets, ih]

theorem join_bytes (bytes more : List UInt8) (rest : List Token) :
    join bytes (more.map .byte ++ rest) = join (bytes ++ more) rest := by
  induction more generalizing bytes with
  | nil => rw [List.map_nil, List.nil_append, List.append_nil]
  | cons b more ih =>
    rw [List.map_cons, List.cons_append, join, ih, List.append_assoc, List.singleton_append]

/-- Reading goes on from the bytes of characters that have not been put out yet. -/
theorem join_encodedTokens (held cs : List Char) :
    join (Utf8.encode held) (encodedTokens cs) = held ++ cs := by
  induction cs generalizing held with
  | nil => rw [List.append_nil]; exact Utf8.decode_encode held
  | cons c rest ih =>
    unfold encodedTokens at *
    rw [List.flatMap_cons]
    by_cases hplain : isPlain c = true
    · rw [if_pos hplain, List.singleton_append, join, Utf8.decode_encode]
      exact congrArg (held ++ c :: ·) (ih [])
    · have hheld : Utf8.encode held ++ String.utf8EncodeChar c = Utf8.encode (held ++ [c]) := by
        unfold Utf8.encode
        rw [List.flatMap_append, List.flatMap_singleton]
      rw [if_neg hplain, join_bytes, hheld, ih, List.append_assoc, List.singleton_append]

/-- **An encoded text stands for the text.** -/
theorem decode_encode (text : String) : decode (encode text) = text := by
  have hjoin : join [] (encodedTokens text.toList) = text.toList :=
    join_encodedTokens [] text.toList
  unfold decode encode decodeChars
  rw [String.toList_ofList, tokens_encodeChars, hjoin, String.ofList_toList]

/-- An encoded text holds nothing but plain characters and percent signs. -/
theorem plain_of_mem_encode {text : String} {c : Char} (hc : c ∈ (encode text).toList) :
    isPlain c = true ∨ c = '%' := by
  unfold encode encodeChars at hc
  rw [String.toList_ofList, List.mem_flatMap] at hc
  obtain ⟨d, -, hc⟩ := hc
  split at hc
  · rename_i hplain
    rw [List.mem_singleton.mp hc]
    exact Or.inl hplain
  · obtain ⟨b, -, hoctet⟩ := List.mem_flatMap.mp hc
    have hb := b.toNat_lt
    simp only [octet, List.mem_cons, List.not_mem_nil, or_false] at hoctet
    rcases hoctet with rfl | rfl | rfl
    · exact Or.inr rfl
    · exact Or.inl (isPlain_upperHexDigit _ (by omega))
    · exact Or.inl (isPlain_upperHexDigit _ (by omega))

/-! ## Slashes -/

theorem encode_append (front rest : String) :
    encode (front ++ rest) = encode front ++ encode rest := by
  unfold encode encodeChars
  rw [String.toList_append, List.flatMap_append, String.ofList_append]

theorem encode_slash : encode "/" = "/" := by
  decide

/-- No slash comes up that was not there. -/
theorem slash_not_mem_encode {text : String} (h : '/' ∉ text.toList) :
    '/' ∉ (encode text).toList := by
  unfold encode encodeChars
  rw [String.toList_ofList, List.mem_flatMap]
  rintro ⟨c, hc, hslash⟩
  split at hslash
  · rw [List.mem_singleton] at hslash
    exact h (hslash ▸ hc)
  · obtain ⟨b, -, hoctet⟩ := List.mem_flatMap.mp hslash
    have hb := b.toNat_lt
    simp only [octet, List.mem_cons, List.not_mem_nil, or_false] at hoctet
    rcases hoctet with hpercent | hhigh | hlow
    · cases hpercent
    · exact upperHexDigit_ne_slash _ (by omega) hhigh.symm
    · exact upperHexDigit_ne_slash _ (by omega) hlow.symm

theorem encode_ne_empty {text : String} (h : text ≠ "") : encode text ≠ "" := by
  intro hempty
  have := decode_encode text
  rw [hempty] at this
  exact h this.symm

/-- A text that does not end in a slash does not so when it is encoded. -/
theorem getLast?_encode {text : String} (h : text.toList.getLast? ≠ some '/') :
    (encode text).toList.getLast? ≠ some '/' := by
  rcases List.eq_nil_or_concat text.toList with hnil | ⟨front, c, hconcat⟩
  · rw [String.toList_injective (hnil.trans String.toList_empty.symm)]
    decide
  · have htext : text = String.ofList front ++ String.ofList [c] :=
      String.toList_injective (by simpa using hconcat)
    have hlast : '/' ∉ (String.ofList [c]).toList := by
      rw [String.toList_ofList, List.mem_singleton]
      rintro rfl
      exact h (by rw [hconcat, List.concat_eq_append, List.getLast?_concat])
    have hne : (encode (String.ofList [c])).toList ≠ [] := fun hnil =>
      encode_ne_empty (by simp) (String.toList_injective (hnil.trans String.toList_empty.symm))
    rw [htext, encode_append, String.toList_append, List.getLast?_append_of_ne_nil _ hne]
    exact fun hmem => slash_not_mem_encode hlast (List.mem_of_getLast? hmem)

end HeadFinder.Text.Percent
