import Mathlib.Data.List.DropRight
import Mathlib.Data.Nat.Notation

/-!
# UTF-8 as lists of bytes

Encoding and strict decoding of text, over the standard library's UTF-8, and the
property of UTF-8 that line framing rests on: the byte of a line feed occurs in
no other character.
-/

namespace Utf8

/-- The bytes of a text. -/
def encode (cs : List Char) : List UInt8 := cs.flatMap String.utf8EncodeChar

/-- The text that some bytes are the encoding of, if they are valid UTF-8. -/
def decode (bytes : List UInt8) : Option (List Char) :=
  (String.fromUTF8? bytes.toByteArray).map String.toList

/-- The byte of a line feed. -/
def lineFeed : UInt8 := 10

@[simp] theorem encode_nil : encode [] = [] := rfl

@[simp] theorem encode_append (cs ds : List Char) :
    encode (cs ++ ds) = encode cs ++ encode ds :=
  List.flatMap_append

@[simp] theorem encode_cons (c : Char) (cs : List Char) :
    encode (c :: cs) = String.utf8EncodeChar c ++ encode cs :=
  List.flatMap_cons

theorem encode_replicate {c : Char} {b : UInt8}
    (hc : String.utf8EncodeChar c = [b]) (k : ℕ) :
    encode (List.replicate k c) = List.replicate k b := by
  induction k with
  | zero => rfl
  | succ k ih =>
      rw [List.replicate_succ, encode_cons, ih, hc]
      rfl

theorem toByteArray_inj {bytes bytes' : List UInt8}
    (h : bytes.toByteArray = bytes'.toByteArray) : bytes = bytes' := by
  have hdata := congrArg (fun b : ByteArray => b.data.toList) h
  simpa only [List.toList_data_toByteArray] using hdata

theorem decode_encode (cs : List Char) : decode (encode cs) = some cs := by
  have hvalid : (encode cs).toByteArray.IsValidUTF8 := .intro cs rfl
  have hstring : String.fromUTF8 (encode cs).toByteArray hvalid =
      String.ofList cs := rfl
  rw [decode, String.fromUTF8?, dif_pos hvalid, hstring, Option.map_some,
    String.toList_ofList]

theorem decode_eq_some_iff {bytes : List UInt8} {cs : List Char} :
    decode bytes = some cs ↔ bytes = encode cs := by
  constructor
  · intro h
    obtain ⟨s, hs, rfl⟩ := Option.map_eq_some_iff.mp h
    rw [String.fromUTF8?] at hs
    split at hs
    next hvalid =>
      obtain rfl : String.fromUTF8 _ hvalid = s := Option.some.inj hs
      apply toByteArray_inj
      exact (String.utf8Encode_toList (b := String.fromUTF8 _ hvalid)).symm
    next => cases hs
  · rintro rfl
    exact decode_encode cs

/-! ## Line feeds -/

theorem encode_lineFeed : String.utf8EncodeChar '\n' = [lineFeed] := by
  decide

/-- Only the line feed has the byte of a line feed. -/
theorem lineFeed_notMem_encodeChar {c : Char} (hc : c ≠ '\n') :
    lineFeed ∉ String.utf8EncodeChar c := by
  -- an ASCII character is its own byte, and all other bytes are above 127
  have hascii : c.val.toNat ≤ 127 → lineFeed ≠ UInt8.ofNat c.val.toNat := by
    intro hle h
    have hnat := congrArg UInt8.toNat h
    rw [UInt8.toNat_ofNat'] at hnat
    have hten : c.val.toNat = 10 := by
      rw [Nat.mod_eq_of_lt (by omega)] at hnat
      exact hnat.symm
    apply hc
    apply Char.ext
    exact UInt32.toNat_inj.mp hten
  have hhigh : ∀ n, 128 ≤ n → n < 256 → lineFeed ≠ UInt8.ofNat n := by
    intro n hlow hlt h
    have hnat := congrArg UInt8.toNat h
    rw [UInt8.toNat_ofNat', Nat.mod_eq_of_lt hlt] at hnat
    have hten : (10 : ℕ) = n := hnat
    omega
  intro hmem
  unfold String.utf8EncodeChar at hmem
  dsimp only at hmem
  split at hmem
  next hle => exact hascii hle (List.mem_singleton.mp hmem)
  next =>
    split at hmem
    next =>
      simp only [List.mem_cons, List.not_mem_nil, or_false] at hmem
      rcases hmem with h | h <;> exact hhigh _ (by omega) (by omega) h
    next =>
      split at hmem
      next =>
        simp only [List.mem_cons, List.not_mem_nil, or_false] at hmem
        rcases hmem with h | h | h <;> exact hhigh _ (by omega) (by omega) h
      next =>
        simp only [List.mem_cons, List.not_mem_nil, or_false] at hmem
        rcases hmem with h | h | h | h <;> exact hhigh _ (by omega) (by omega) h

theorem lineFeed_notMem_encode {cs : List Char} (hcs : '\n' ∉ cs) :
    lineFeed ∉ encode cs := by
  intro hmem
  obtain ⟨c, hc, hbyte⟩ := List.mem_flatMap.mp hmem
  refine lineFeed_notMem_encodeChar ?_ hbyte
  rintro rfl
  exact hcs hc

/-- A line feed among the bytes of a text is one of its characters. -/
theorem encode_eq_append_lineFeed {cs : List Char} {bytes rest : List UInt8}
    (h : encode cs = bytes ++ lineFeed :: rest) :
    ∃ xs ys, cs = xs ++ '\n' :: ys ∧ encode xs = bytes ∧ encode ys = rest := by
  induction cs generalizing bytes with
  | nil => simp at h
  | cons c cs ih =>
      rw [encode_cons] at h
      rcases List.append_eq_append_iff.mp h with
        ⟨more, rfl, hmore⟩ | ⟨more, hc, hmore⟩
      · obtain ⟨xs, ys, rfl, rfl, hys⟩ := ih hmore
        exact ⟨c :: xs, ys, rfl, encode_cons c xs, hys⟩
      · cases more with
        | nil =>
            -- the line feed is the first byte after this character
            rw [List.append_nil] at hc
            have htail : encode cs = [] ++ lineFeed :: rest := hmore.symm
            obtain ⟨xs, ys, rfl, hxs, hys⟩ := ih htail
            refine ⟨c :: xs, ys, rfl, ?_, hys⟩
            rw [encode_cons, hxs, List.append_nil, hc]
        | cons b more =>
            obtain ⟨rfl, hrest⟩ := List.cons.inj hmore
            have hlf : c = '\n' := by
              by_contra hne
              apply lineFeed_notMem_encodeChar hne
              rw [hc]
              exact List.mem_append_right _ List.mem_cons_self
            subst hlf
            rw [encode_lineFeed] at hc
            have hbytes : bytes = [] ∧ more = [] := by
              cases bytes with
              | nil => exact ⟨rfl, (List.cons.inj hc).2.symm⟩
              | cons b' bytes =>
                  have hlength := congrArg List.length hc
                  simp at hlength
            rw [hbytes.2] at hrest
            exact ⟨[], cs, rfl, hbytes.1.symm, hrest.symm⟩

/-- A text with a line feed is valid exactly if both sides of it are. -/
theorem decode_lineFeed_eq_some_iff {bytes rest : List UInt8}
    {cs : List Char} : decode (bytes ++ lineFeed :: rest) = some cs ↔
      ∃ xs ys, decode bytes = some xs ∧ decode rest = some ys ∧
        xs ++ '\n' :: ys = cs := by
  constructor
  · intro h
    obtain ⟨xs, ys, rfl, rfl, rfl⟩ :=
      encode_eq_append_lineFeed (decode_eq_some_iff.mp h).symm
    exact ⟨xs, ys, decode_encode xs, decode_encode ys, rfl⟩
  · rintro ⟨xs, ys, hxs, hys, rfl⟩
    rw [decode_eq_some_iff] at hxs hys
    rw [decode_eq_some_iff, hxs, hys, encode_append, encode_cons,
      encode_lineFeed]
    rfl

/-- A line is valid together with its line feed if it is valid on its own. -/
theorem decode_append_lineFeed (bytes : List UInt8) :
    decode (bytes ++ [lineFeed]) = (decode bytes).map (· ++ ['\n']) := by
  have hnil : decode [] = some [] := decode_encode []
  apply Option.ext
  intro cs
  rw [decode_lineFeed_eq_some_iff, Option.map_eq_some_iff]
  constructor
  · rintro ⟨xs, ys, hxs, hys, rfl⟩
    obtain rfl : [] = ys := Option.some.inj (hnil.symm.trans hys)
    exact ⟨xs, hxs, rfl⟩
  · rintro ⟨xs, hxs, rfl⟩
    exact ⟨xs, [], hxs, hnil, rfl⟩

end Utf8
