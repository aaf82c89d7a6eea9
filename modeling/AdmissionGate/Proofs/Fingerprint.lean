import Mathlib
import AdmissionGate.Fingerprint
import AdmissionGate.Proofs.Text.Digits

/-!
# Proofs/Fingerprint — framed parts and their digests

The bytes of a frame have one reading: the length in front of a part is a numeral, which holds no
colon, and it counts the bytes that belong to the part.  So equal frames are frames of equal parts.
A fingerprint spells its digest in numerals of one width, so equal fingerprints are equal digests.
-/

namespace AdmissionGate

/-! ## 1. Pieces in a row -/

section

variable {α β : Type}

/-- Pieces that can be told from whatever follows them can be told apart in a row. -/
theorem flatMap_injective {f : α → List β} (hne : ∀ a, f a ≠ [])
    (hinj : ∀ {a a' : α} {rest rest' : List β}, f a ++ rest = f a' ++ rest' → a = a' ∧ rest = rest')
    {as as' : List α} (h : as.flatMap f = as'.flatMap f) : as = as' := by
  have hcons (a : α) (as : List α) : (a :: as).flatMap f ≠ [] := by
    rw [List.flatMap_cons]
    exact List.append_ne_nil_of_left_ne_nil (hne a) _
  -- On the first row: a piece at its head is the piece at the head of the other one.
  induction as generalizing as' with
  | nil =>
    cases as' with
    | nil => rfl
    | cons a' rest' => exact absurd h.symm (hcons a' rest')
  | cons a rest ih =>
    cases as' with
    | nil => exact absurd h (hcons a rest)
    | cons a' rest' =>
      rw [List.flatMap_cons, List.flatMap_cons] at h
      obtain ⟨rfl, hrest⟩ := hinj h
      rw [ih hrest]

/-- What stands before the first separator can be told from what follows it. -/
theorem append_separator_inj {sep : α} {as bs as' bs' : List α} (has : sep ∉ as)
    (has' : sep ∉ as') (h : as ++ sep :: bs = as' ++ sep :: bs') : as = as' ∧ bs = bs' := by
  induction as generalizing as' with
  | nil =>
    cases as' with
    | nil => exact ⟨rfl, List.tail_eq_of_cons_eq h⟩
    | cons x' rest' => exact absurd (List.head_eq_of_cons_eq h ▸ List.mem_cons_self) has'
  | cons x rest ih =>
    cases as' with
    | nil => exact absurd (List.head_eq_of_cons_eq h ▸ List.mem_cons_self) has
    | cons x' rest' =>
      rw [List.cons_append, List.cons_append, List.cons.injEq] at h
      obtain ⟨rfl, hrest⟩ := h
      rw [List.mem_cons, not_or] at has has'
      obtain ⟨rfl, hbs⟩ := ih has.2 has'.2 hrest
      exact ⟨rfl, hbs⟩

end

namespace Fingerprint

/-! ## 2. The bytes of texts -/

theorem length_bytes (text : String) : (bytes text).length = text.utf8ByteSize := by
  unfold bytes
  rw [String.toUTF8_eq_toByteArray, Array.length_toList]
  exact String.size_toByteArray

theorem bytes_injective {a b : String} (h : bytes a = bytes b) : a = b := by
  apply String.toByteArray_inj.mp
  apply ByteArray.ext
  exact Array.toList_inj.mp h

theorem bytes_ofList (cs : List Char) :
    bytes (String.ofList cs) = cs.flatMap String.utf8EncodeChar := by
  unfold bytes
  rw [String.toUTF8_eq_toByteArray, String.toByteArray_ofList, List.utf8Encode,
    List.toList_data_toByteArray]

theorem bytes_colon : bytes ":" = [58] := by decide

theorem colon_not_mem_of_isDigit {c : Char} (h : c.isDigit = true) :
    58 ∉ String.utf8EncodeChar c := by
  have hrange : 48 ≤ c.val.toNat ∧ c.val.toNat ≤ 57 := by
    rw [Char.isDigit_iff_toNat] at h
    exact h
  have hsize : c.utf8Size = 1 := by
    rw [Char.utf8Size_eq_one_iff, UInt32.le_iff_toNat_le]
    show c.val.toNat ≤ 127
    omega
  -- A digit is encoded as one byte, which is its code point and not that of a colon.
  rw [String.utf8EncodeChar_eq_singleton hsize, List.mem_singleton]
  intro hcolon
  have hvalue : 58 = c.val.toNat % 256 := by
    have hbyte := congrArg UInt8.toNat hcolon
    rw [UInt32.toNat_toUInt8] at hbyte
    exact hbyte
  omega

theorem colon_not_mem_bytes_decimal (n : Nat) : 58 ∉ bytes (Text.decimal n) := by
  unfold Text.decimal
  rw [bytes_ofList, List.mem_flatMap]
  rintro ⟨c, hc, hcolon⟩
  exact colon_not_mem_of_isDigit (Text.isDigit_of_mem_decimalChars hc) hcolon

/-! ## 3. Frames -/

theorem framePart_append (part : String) (rest : List UInt8) :
    framePart part ++ rest =
      bytes (Text.decimal part.utf8ByteSize) ++ 58 :: (bytes part ++ rest) := by
  unfold framePart
  rw [bytes_colon, List.append_assoc, List.append_assoc, List.singleton_append]

/-- A framed part can be told from what follows it. -/
theorem framePart_append_inj {part part' : String} {rest rest' : List UInt8}
    (h : framePart part ++ rest = framePart part' ++ rest') : part = part' ∧ rest = rest' := by
  rw [framePart_append, framePart_append] at h
  -- The length ends at the first colon and says where the part ends.
  obtain ⟨hnumeral, hparts⟩ := append_separator_inj (colon_not_mem_bytes_decimal _)
    (colon_not_mem_bytes_decimal _) h
  have hsize : part.utf8ByteSize = part'.utf8ByteSize := by
    have hdigits := congrArg String.toList (bytes_injective hnumeral)
    rw [Text.toList_decimal, Text.toList_decimal] at hdigits
    exact Text.decimalChars_injective hdigits
  have hlength : (bytes part).length = (bytes part').length := by
    rw [length_bytes, length_bytes, hsize]
  obtain ⟨hpart, hrest⟩ := List.append_inj hparts hlength
  exact ⟨bytes_injective hpart, hrest⟩

theorem framePart_ne_nil (part : String) : framePart part ≠ [] := by
  rw [← List.append_nil (framePart part), framePart_append]
  exact List.append_ne_nil_of_right_ne_nil _ (List.cons_ne_nil _ _)

theorem frame_injective {parts parts' : List String} (h : frame parts = frame parts') :
    parts = parts' :=
  flatMap_injective framePart_ne_nil framePart_append_inj h

/-! ## 4. Messages -/

theorem message_inj {predicate predicate' code code' : String} {values values' : List String} :
    message predicate code values = message predicate' code' values' ↔
      predicate = predicate' ∧ code = code' ∧ values = values' := by
  constructor
  · intro h
    -- The first two parts are the predicate and the code, however many values follow them.
    have hparts := frame_injective h
    rw [List.cons.injEq, List.cons.injEq] at hparts
    exact hparts
  · intro h
    rw [h.1, h.2.1, h.2.2]

/-- The length in front of a part counts its bytes, and a character can take up to four. -/
theorem framePart_eq (part : String) :
    framePart part = bytes (toString (bytes part).length) ++ bytes ":" ++ bytes part := by
  rw [length_bytes]
  rfl

/-- What is digested for a fingerprint is uniquely decodable.  It spells the predicate, the code and
the values in turn, each as its length in bytes, a colon and the bytes themselves, and no others are
spelled by the same bytes. -/
theorem messages_are_uniquely_decodable (predicate code : String) (values : List String) :
    compute predicate code values = Sha256.hexDigest (message predicate code values) ∧
    message predicate code values = (predicate :: code :: values).flatMap (fun part =>
      bytes (toString (bytes part).length) ++ bytes ":" ++ bytes part) ∧
    ∀ (predicate' code' : String) (values' : List String),
      message predicate code values = message predicate' code' values' ↔
        predicate = predicate' ∧ code = code' ∧ values = values' := by
  refine ⟨rfl, ?_, ?_⟩
  · unfold message frame
    apply List.flatMap_congr
    intro part _
    exact framePart_eq part
  · intro predicate' code' values'
    exact message_inj

/-- A letter of two bytes, no letter at all, and a value that looks like an empty part. -/
example : message "ü" "" ["0:"] = bytes "2:ü0:2:0:" := by decide

end Fingerprint

/-! ## 5. Digests -/

namespace Sha256

theorem paddedHex_append_inj {word word' : UInt32} {rest rest' : List Char}
    (h : (Text.paddedHex 8 word.toNat).toList ++ rest =
      (Text.paddedHex 8 word'.toNat).toList ++ rest') : word = word' ∧ rest = rest' := by
  have hlength (word : UInt32) : (Text.paddedHex 8 word.toNat).toList.length = 8 :=
    Text.length_paddedHex (by decide) word.toNat_lt
  -- All numerals of words have eight digits, so the rows split at the same place.
  obtain ⟨hnumeral, hrest⟩ := List.append_inj h ((hlength word).trans (hlength word').symm)
  have hvalue := Text.ofHexChars?_paddedHex 8 word.toNat
  rw [hnumeral, Text.ofHexChars?_paddedHex] at hvalue
  exact ⟨UInt32.toNat_inj.mp (Option.some.inj hvalue).symm, hrest⟩

theorem paddedHex_ne_nil (word : UInt32) : (Text.paddedHex 8 word.toNat).toList ≠ [] := by
  rw [← List.length_pos_iff_ne_nil, Text.length_paddedHex (by decide) word.toNat_lt]
  decide

/-- Equal texts of digests are texts of equal digests. -/
theorem digest_eq_of_hexDigest_eq {message message' : List UInt8}
    (h : hexDigest message = hexDigest message') : digest message = digest message' := by
  have hlist := congrArg String.toList h
  unfold hexDigest at hlist
  rw [String.toList_join, String.toList_join, List.flatMap_map, List.flatMap_map] at hlist
  exact flatMap_injective paddedHex_ne_nil paddedHex_append_inj hlist

end Sha256

end AdmissionGate
