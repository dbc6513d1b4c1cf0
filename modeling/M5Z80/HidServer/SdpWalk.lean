import Mathlib.Tactic.IntervalCases
import M5Z80.HidServer.Sdp

/-!
# M5Z80.HidServer.SdpWalk

The walk of `SDPParse` over what a device answers: every list of service
records, in every encoding of its lengths, is consumed to its last byte, and
the HID descriptor is the last string below its attribute.
-/

namespace M5Z80
namespace HidServer
namespace SDPParse

/-! ## data elements -/

/-- The size of the length of a string or a sequence. -/
inductive Width
  | byte | word | long

/-- The size index in the header of an element with a length. -/
def Width.index : Width → Nat
  | .byte => 5
  | .word => 6
  | .long => 7

/-- The lengths that fit; `item` and `list` take theirs as an `int`. -/
def Width.bound : Width → Nat
  | .byte => 2 ^ 8
  | .word => 2 ^ 16
  | .long => 2 ^ 31

/-- A length, its high byte first. -/
def Width.encode (n : Nat) : Width → List UInt8
  | .byte => [UInt8.ofNat n]
  | .word => [UInt8.ofNat (n / 256), UInt8.ofNat n]
  | .long => [UInt8.ofNat (n / 16777216), UInt8.ofNat (n / 65536), UInt8.ofNat (n / 256),
      UInt8.ofNat n]

/-- A data element: a value of `2 ^ size` bytes (`type` is an integer, 1 or 2,
or a UUID, 3), a string, a sequence, or an alternative or URL (7 or 8), which
the walk does not look into. -/
inductive Element
  | null
  | fixed (type : Nat) (size : Fin 5) (bytes : List UInt8)
  | bool (b : UInt8)
  | text (width : Width) (bytes : List UInt8)
  | other (type : Nat) (width : Width) (bytes : List UInt8)
  | seq (width : Width) (elements : List Element)

/-- The header of a type and a size index. -/
def tag (type size : Nat) : UInt8 := UInt8.ofNat (type * 8 + size)

/-- A header with a length and what it is the length of. -/
def encodeSized (type : Nat) (width : Width) (bytes : List UInt8) : List UInt8 :=
  tag type width.index :: (width.encode bytes.length ++ bytes)

mutual

/-- The bytes of an element. -/
def Element.encode : Element → List UInt8
  | .null => [0]
  | .fixed type size bytes => tag type size :: bytes
  | .bool b => [tag 5 0, b]
  | .text width bytes => encodeSized 4 width bytes
  | .other type width bytes => encodeSized type width bytes
  | .seq width elements => encodeSized 6 width (encodeAll elements)

def encodeAll : List Element → List UInt8
  | [] => []
  | e :: es => e.encode ++ encodeAll es

end

mutual

/-- The strings of an element, in the order of the walk. -/
def Element.texts : Element → List (List UInt8)
  | .null => []
  | .fixed _ _ _ => []
  | .bool _ => []
  | .text _ bytes => [bytes]
  | .other _ _ _ => []
  | .seq _ elements => textsAll elements

def textsAll : List Element → List (List UInt8)
  | [] => []
  | e :: es => e.texts ++ textsAll es

end

mutual

/-- The lengths fit their fields. -/
def Element.WellFormed : Element → Prop
  | .null => True
  | .fixed type size bytes => (type = 1 ∨ type = 2 ∨ type = 3) ∧ bytes.length = 2 ^ size.val
  | .bool _ => True
  | .text width bytes => bytes.length < width.bound
  | .other type width bytes => (type = 7 ∨ type = 8) ∧ bytes.length < width.bound
  | .seq width elements => (encodeAll elements).length < width.bound ∧ WellFormedAll elements

def WellFormedAll : List Element → Prop
  | [] => True
  | e :: es => e.WellFormed ∧ WellFormedAll es

end

/-! ## headers -/

/-- The header of an element of fixed size. -/
theorem header_fixed {type : Nat} (htype : type ≠ 0) (hlt : type < 32) (size : Fin 5)
    (rest : List UInt8) : header (tag type size :: rest) = some (type, 2 ^ size.val, rest) := by
  have hsize := size.isLt
  have htag : (tag type size).toNat = type * 8 + size := UInt8.toNat_ofNat_of_lt' (by
    change _ < 256
    omega)
  have hdiv : (type * 8 + size.val) / 8 = type := by omega
  have hmod : (type * 8 + size.val) % 8 = size.val := by omega
  simp only [header, u8, htag, hdiv, hmod, Option.bind_eq_bind, Option.bind_some]
  obtain ⟨size, hsize⟩ := size
  interval_cases size <;> simp only [if_neg htype, Option.pure_def]

/-- The header of an element with its length in front. -/
theorem header_sized {type : Nat} (htype : type ≠ 0) (hlt : type < 32) (width : Width) {n : Nat}
    (hn : n < width.bound) (rest : List UInt8) :
    header (tag type width.index :: (width.encode n ++ rest)) = some (type, n, rest) := by
  have hindex : width.index < 8 := by cases width <;> decide
  have htag : (tag type width.index).toNat = type * 8 + width.index :=
    UInt8.toNat_ofNat_of_lt' (by
      change _ < 256
      omega)
  have hdiv : (type * 8 + width.index) / 8 = type := by omega
  have hmod : (type * 8 + width.index) % 8 = width.index := by omega
  simp only [header, u8, htag, hdiv, hmod, Option.bind_eq_bind, Option.bind_some]
  cases width <;>
    simp only [Width.index, Width.encode, Width.bound, List.cons_append, List.nil_append, u16,
      u32, u8, Option.bind_eq_bind, Option.bind_some, Option.pure_def, UInt8.toNat_ofNat',
      if_neg htype] at hn ⊢
  all_goals
    congr 3
    omega

/-- The walk passes over the bytes of a string. -/
theorem skip_append (bytes rest : List UInt8) : skip bytes.length (bytes ++ rest) = some rest := by
  rw [skip, List.length_append, if_pos (Nat.le_add_right _ _), List.drop_left]

/-- The end of a sequence is where the bytes after it begin. -/
theorem seqEnd_append {bytes : List UInt8} (h : bytes.length < 2 ^ 31) (rest : List UInt8) :
    seqEnd bytes.length (bytes ++ rest) = rest.length := by
  have hint : (UInt32.ofNat bytes.length).toInt32.toInt = bytes.length := by
    rw [UInt32.toInt32_ofNat', Int32.toInt_ofNat_of_lt h]
  rw [seqEnd, hint, List.length_append]
  omega

/-- No length of an element reaches the sign. -/
theorem Width.bound_le (width : Width) : width.bound ≤ 2 ^ 31 := by cases width <;> decide

/-! ## elements -/

/-- Hands strings to the handler of strings, in order. -/
def handle (texts : List (List UInt8)) (p : SDPParse) : SDPParse :=
  texts.foldl (fun p text => onString text p) p

/-- Nothing to handle. -/
@[simp] theorem handle_nil (p : SDPParse) : handle [] p = p := rfl

/-- Strings are handled in order. -/
theorem handle_append (ts us : List (List UInt8)) (p : SDPParse) :
    handle (ts ++ us) p = handle us (handle ts p) := List.foldl_append

/-- An element that is skipped. -/
theorem element_skip {type : Nat} (htype : type = 1 ∨ type = 2 ∨ type = 3 ∨ type = 7 ∨ type = 8)
    (nested : Int → SDPParse → List UInt8 → Option (Bool × SDPParse × List UInt8)) (p : SDPParse)
    {data bytes rest : List UInt8}
    (hheader : header data = some (type, bytes.length, bytes ++ rest)) :
    element nested p data = some (p, rest) := by
  simp only [element, hheader, Option.bind_eq_bind, Option.bind_some]
  rcases htype with rfl | rfl | rfl | rfl | rfl <;>
    simp only [skip_append, Option.map_some]

theorem length_encode_pos (e : Element) : 0 < e.encode.length := by
  cases e <;> simp [Element.encode, encodeSized]

/-- An encoded element begins with its header and its bytes. -/
theorem header_encodeSized {type : Nat} (htype : type ≠ 0) (hlt : type < 32) {width : Width}
    {bytes : List UInt8} (h : bytes.length < width.bound) (rest : List UInt8) :
    header (encodeSized type width bytes ++ rest) = some (type, bytes.length, bytes ++ rest) := by
  rw [encodeSized, List.cons_append, List.append_assoc]
  exact header_sized htype hlt width h (bytes ++ rest)

mutual

/-- An element is consumed to its end, and its strings are handled. -/
theorem element_encode (e : Element) (h : e.WellFormed) (fuel : Nat)
    (hfuel : e.encode.length ≤ fuel) (p : SDPParse) (rest : List UInt8) :
    element (item fuel false) p (e.encode ++ rest) = some (handle e.texts p, rest) := by
  cases e with
  | null =>
      have hheader : header (0 :: rest) = some (0, 0, rest) := rfl
      simp only [Element.encode, List.singleton_append, element, hheader, Option.bind_eq_bind,
        Option.bind_some, Option.pure_def, Element.texts, handle_nil]
  | fixed type size bytes =>
      obtain ⟨htype, hlen⟩ := h
      rw [Element.encode, Element.texts, handle_nil, List.cons_append]
      refine element_skip (by omega) _ p (hlen ▸ header_fixed ?_ ?_ size (bytes ++ rest)) <;> omega
  | bool b =>
      have hheader : header (tag 5 0 :: b :: rest) = some (5, 1, b :: rest) := rfl
      have hskip : skip 1 (b :: rest) = some rest := skip_append [b] rest
      simp only [Element.encode, List.cons_append, List.nil_append, element, hheader,
        Option.bind_eq_bind, Option.bind_some, hskip, Option.map_some, Element.texts, handle_nil]
  | text width bytes =>
      rw [Element.encode, element, header_encodeSized (by decide) (by decide) h]
      simp only [Option.bind_eq_bind, Option.bind_some, skip_append, Option.map_some,
        List.take_left]
      rfl
  | other type width bytes =>
      obtain ⟨htype, hlen⟩ := h
      rw [Element.encode, Element.texts, handle_nil]
      refine element_skip (by omega) _ p (header_encodeSized ?_ ?_ hlen rest) <;> omega
  | seq width elements =>
      obtain ⟨hlen, hall⟩ := h
      have hlt : (encodeAll elements).length < fuel := by
        rw [Element.encode, encodeSized, List.length_cons, List.length_append] at hfuel
        omega
      rw [Element.encode, element, header_encodeSized (by decide) (by decide) hlen]
      simp only [Option.bind_eq_bind, Option.bind_some,
        seqEnd_append (hlen.trans_le width.bound_le),
        item_encodeAll elements hall fuel hlt p rest, Option.map_some, Element.texts]

/-- A sequence of elements is walked to its end. -/
theorem item_encodeAll (es : List Element) (h : WellFormedAll es) (fuel : Nat)
    (hfuel : (encodeAll es).length < fuel) (p : SDPParse) (rest : List UInt8) :
    item fuel false rest.length p (encodeAll es ++ rest) =
      some (true, handle (textsAll es) p, rest) := by
  obtain ⟨fuel, rfl⟩ := Nat.exists_eq_add_one_of_ne_zero (Nat.ne_zero_of_lt hfuel)
  cases es with
  | nil => simp [item, encodeAll, textsAll]
  | cons e es =>
      obtain ⟨he, hes⟩ := h
      have hpos := length_encode_pos e
      rw [encodeAll, List.length_append] at hfuel
      have hmore : ¬ ((encodeAll (e :: es) ++ rest).length : Int) ≤ rest.length := by
        rw [encodeAll, List.length_append, List.length_append]
        omega
      have helem := element_encode e he fuel (by omega) p (encodeAll es ++ rest)
      rw [item, if_neg hmore, encodeAll, List.append_assoc]
      simp only [Bool.false_eq_true, if_false, false_and, Option.bind_eq_bind, Option.bind_some,
        helem]
      rw [item_encodeAll es hes fuel (by omega) (handle e.texts p) rest, textsAll, handle_append]

end

/-! ## service records -/

/-- An attribute of a service record. -/
structure Attribute where
  id : UInt16
  value : Element

/-- A service record. -/
structure Record where
  width : Width
  attributes : List Attribute

namespace Attribute

/-- The id is an integer of two bytes. -/
def encode (a : Attribute) : List UInt8 :=
  tag 1 1 :: UInt8.ofNat (a.id.toNat / 256) :: UInt8.ofNat a.id.toNat :: a.value.encode

/-- What the walk makes of an attribute. -/
def walk (p : SDPParse) (a : Attribute) : SDPParse :=
  handle a.value.texts { p with currentId := a.id.toNat }

/-- The strings below the attribute of the HID descriptor. -/
def descriptors (a : Attribute) : List (List UInt8) :=
  if (a.id.toNat : Int) = sdpAttrHidDescriptorList then a.value.texts else []

end Attribute

namespace Record

def body (r : Record) : List UInt8 := r.attributes.flatMap Attribute.encode

def encode (r : Record) : List UInt8 := encodeSized 6 r.width r.body

structure WellFormed (r : Record) : Prop where
  length_lt : r.body.length < r.width.bound
  values : ∀ a ∈ r.attributes, a.value.WellFormed

def walk (p : SDPParse) (r : Record) : SDPParse := r.attributes.foldl Attribute.walk p

end Record

/-- What a device answers to the search: the list of its service records. -/
def encodeRecords (width : Width) (records : List Record) : List UInt8 :=
  encodeSized 6 width (records.flatMap Record.encode)

/-- The strings below the attribute of the HID descriptor. -/
def descriptors (records : List Record) : List (List UInt8) :=
  records.flatMap fun r => r.attributes.flatMap Attribute.descriptors

/-- The id of an attribute is read as it was written. -/
theorem getId16_encode (id : UInt16) (rest : List UInt8) :
    getId16 (tag 1 1 :: UInt8.ofNat (id.toNat / 256) :: UInt8.ofNat id.toNat :: rest) =
      some ((id.toNat : Int), rest) := by
  have hid := id.toNat_lt
  have hword : id.toNat / 256 % 2 ^ 8 * 256 + id.toNat % 2 ^ 8 = id.toNat := by omega
  have hheader := header_fixed (by decide : 1 ≠ 0) (by decide) 1
    (UInt8.ofNat (id.toNat / 256) :: UInt8.ofNat id.toNat :: rest)
  rw [getId16]
  simp only [Fin.val_one] at hheader
  simp only [hheader, u16, u8, UInt8.toNat_ofNat', Option.bind_eq_bind, Option.bind_some,
    Option.pure_def, hword]
  rfl

/-- A list of attributes is walked to its end. -/
theorem item_attributes (attributes : List Attribute)
    (h : ∀ a ∈ attributes, a.value.WellFormed) (fuel : Nat)
    (hfuel : (attributes.flatMap Attribute.encode).length < fuel) (p : SDPParse)
    (rest : List UInt8) :
    item fuel true rest.length p (attributes.flatMap Attribute.encode ++ rest) =
      some (true, attributes.foldl Attribute.walk p, rest) := by
  induction attributes generalizing fuel p with
  | nil =>
      obtain ⟨fuel, rfl⟩ := Nat.exists_eq_add_one_of_ne_zero (Nat.ne_zero_of_lt hfuel)
      simp [item]
  | cons a attributes ih =>
      obtain ⟨fuel, rfl⟩ := Nat.exists_eq_add_one_of_ne_zero (Nat.ne_zero_of_lt hfuel)
      obtain ⟨ha, hattributes⟩ := List.forall_mem_cons.mp h
      rw [List.flatMap_cons, List.length_append] at hfuel
      have hmore : ¬ (((a :: attributes).flatMap Attribute.encode ++ rest).length : Int) ≤
          rest.length := by
        rw [List.flatMap_cons, List.length_append, List.length_append, Attribute.encode,
          List.length_cons]
        omega
      have halen : a.encode.length = a.value.encode.length + 3 := by
        rw [Attribute.encode, List.length_cons, List.length_cons, List.length_cons]
      have hid : ¬ (a.id.toNat : Int) = -1 := by omega
      have helem := element_encode a.value ha fuel (by omega) { p with currentId := a.id.toNat }
        (attributes.flatMap Attribute.encode ++ rest)
      rw [item, if_neg hmore, List.flatMap_cons, List.append_assoc, Attribute.encode]
      simp only [if_true, List.cons_append, getId16_encode, Option.bind_eq_bind, Option.bind_some,
        true_and, if_neg hid, helem]
      exact ih hattributes fuel (by omega) _

/-- A list of records is walked to its end. -/
theorem list_records (records : List Record) (h : ∀ r ∈ records, r.WellFormed) (fuel : Nat)
    (hfuel : (records.flatMap Record.encode).length < fuel) (p : SDPParse) (rest : List UInt8) :
    list fuel rest.length p (records.flatMap Record.encode ++ rest) =
      some (true, records.foldl Record.walk p, rest) := by
  induction records generalizing fuel p with
  | nil =>
      obtain ⟨fuel, rfl⟩ := Nat.exists_eq_add_one_of_ne_zero (Nat.ne_zero_of_lt hfuel)
      simp [list]
  | cons r records ih =>
      obtain ⟨fuel, rfl⟩ := Nat.exists_eq_add_one_of_ne_zero (Nat.ne_zero_of_lt hfuel)
      obtain ⟨hr, hrecords⟩ := List.forall_mem_cons.mp h
      rw [List.flatMap_cons, List.length_append] at hfuel
      have hrlen : r.encode.length =
          1 + ((r.width.encode r.body.length).length + r.body.length) := by
        rw [Record.encode, encodeSized, List.length_cons, List.length_append, Nat.add_comm]
      have hmore : ¬ (((r :: records).flatMap Record.encode ++ rest).length : Int) ≤
          rest.length := by
        rw [List.flatMap_cons, List.length_append, List.length_append]
        omega
      have hitem := item_attributes r.attributes hr.values fuel (by rw [← Record.body]; omega) p
        (records.flatMap Record.encode ++ rest)
      rw [list, if_neg hmore, List.flatMap_cons, List.append_assoc, Record.encode,
        header_encodeSized (by decide) (by decide) hr.length_lt]
      simp only [Option.bind_eq_bind, Option.bind_some,
        seqEnd_append (hr.length_lt.trans_le r.width.bound_le)]
      rw [Record.body, hitem]
      exact ih hrecords fuel (by omega) _

/-- The walk over a list of records ends, and has handled every attribute. -/
theorem parse_encodeRecords {width : Width} {records : List Record}
    (hlen : (records.flatMap Record.encode).length < width.bound)
    (h : ∀ r ∈ records, r.WellFormed) {p : SDPParse} (hbuf : p.buf = encodeRecords width records) :
    p.parse = some (records.foldl Record.walk p) := by
  have hlist := list_records records h (encodeRecords width records).length (by
    rw [encodeRecords, encodeSized, List.length_cons, List.length_append]
    omega) p []
  have hheader := header_encodeSized (by decide : 6 ≠ 0) (by decide) hlen []
  have hcons : encodeRecords width records ≠ [] := List.cons_ne_nil _ _
  rw [List.append_nil] at hheader
  rw [parse, hbuf, parseLoop, if_neg hcons, encodeRecords, hheader]
  have hend := seqEnd_append (hlen.trans_le width.bound_le) []
  rw [← encodeRecords]
  simp only [Option.bind_eq_bind, Option.bind_some, hend, hlist]
  obtain ⟨n, hn⟩ := Nat.exists_eq_add_one_of_ne_zero
    (Nat.ne_zero_of_lt (List.length_pos_of_ne_nil hcons))
  rw [hn]
  rfl

/-! ## the HID descriptor -/

/-- The last string below the attribute of the descriptor stays. -/
theorem handle_hidDescriptor (texts : List (List UInt8)) (p : SDPParse) :
    (handle texts p).hidDescriptor =
      if p.currentId = sdpAttrHidDescriptorList then texts.getLast?.getD p.hidDescriptor
      else p.hidDescriptor := by
  induction texts generalizing p with
  | nil => simp
  | cons text texts ih =>
      have hid : (onString text p).currentId = p.currentId := by
        rw [onString]
        repeat' split
        all_goals rfl
      have htext : (onString text p).hidDescriptor =
          if p.currentId = sdpAttrHidDescriptorList then text else p.hidDescriptor := by
        rw [onString]
        by_cases h : p.currentId = sdpAttrHidDescriptorList
        · rw [h, if_neg (by decide), if_neg (by decide), if_neg (by decide), if_pos rfl, if_pos rfl]
        · rw [if_neg h, if_neg h]
          repeat' split
          all_goals rfl
      rw [← List.singleton_append, handle_append, ih]
      change (if (onString text p).currentId = _ then
        texts.getLast?.getD (onString text p).hidDescriptor
        else (onString text p).hidDescriptor) = _
      rw [hid, htext, List.getLast?_append, Option.getD_or]
      split <;> rfl

/-- An attribute leaves its last descriptor, or the one before it. -/
theorem Attribute.walk_hidDescriptor (p : SDPParse) (a : Attribute) :
    (Attribute.walk p a).hidDescriptor = a.descriptors.getLast?.getD p.hidDescriptor := by
  rw [Attribute.walk, handle_hidDescriptor, Attribute.descriptors]
  split <;> rfl

/-- Handing out pieces one after another leaves the last string of all. -/
theorem foldl_hidDescriptor {α : Type} {walk : SDPParse → α → SDPParse}
    {strings : α → List (List UInt8)}
    (h : ∀ p a, (walk p a).hidDescriptor = (strings a).getLast?.getD p.hidDescriptor)
    (pieces : List α) (p : SDPParse) :
    (pieces.foldl walk p).hidDescriptor =
      (pieces.flatMap strings).getLast?.getD p.hidDescriptor := by
  induction pieces generalizing p with
  | nil => rfl
  | cons a pieces ih =>
      rw [List.foldl_cons, ih, h, List.flatMap_cons, List.getLast?_append, Option.getD_or]

/-- So a walk leaves the last descriptor of all records. -/
theorem hidDescriptor_walk (records : List Record) (p : SDPParse) :
    (records.foldl Record.walk p).hidDescriptor =
      (descriptors records).getLast?.getD p.hidDescriptor :=
  foldl_hidDescriptor
    (fun p r => foldl_hidDescriptor Attribute.walk_hidDescriptor r.attributes p) records p

end SDPParse
end HidServer
end M5Z80
