import FieldDiscovery.Passive.Dhcp

/-!
# The encoding of DHCP options

What `_options` accepts: pads and options with distinct codes, an end marker, and anything after it
(`encode`). The loop returns the options of the text it accepts, under their codes, and nothing else
is accepted (`optionLoop_eq_ok`).
-/

namespace FieldDiscovery.Passive.Dhcp

open Py

/-! ## The format -/

/-- An option that has an encoding. -/
structure Field where
  code : Byte
  value : List Byte
  code_range : 1 ≤ code.val ∧ code.val ≤ 254
  value_short : value.length ≤ 255

/-- The entry of an option in the result. -/
def Field.entry (f : Field) : Byte × List Byte := (f.code, f.value)

/-- What stands before the end marker. -/
inductive Piece where
  | pad
  | field (f : Field)

namespace Piece

def bytes : Piece → List Byte
  | pad => [0]
  | field f => f.code :: Fin.ofNat _ f.value.length :: f.value

def field? : Piece → Option Field
  | pad => none
  | field f => some f

end Piece

/-- The options among the pieces. -/
def fieldsOf (pieces : List Piece) : List Field := pieces.filterMap Piece.field?

/-- Pieces, the end marker, and what trails. -/
def encode (pieces : List Piece) (trailing : List Byte) : List Byte :=
  pieces.flatMap Piece.bytes ++ 255 :: trailing

/-! ## The loop -/

@[simp] theorem fieldsOf_nil : fieldsOf [] = [] := rfl

@[simp] theorem fieldsOf_field (f : Field) (pieces : List Piece) :
    fieldsOf (.field f :: pieces) = f :: fieldsOf pieces := rfl

theorem encode_ne_nil (pieces : List Piece) (trailing : List Byte) : encode pieces trailing ≠ [] := by
  simp [encode]

theorem encode_pad (pieces : List Piece) (trailing : List Byte) :
    encode (.pad :: pieces) trailing = 0 :: encode pieces trailing := rfl

theorem encode_field (f : Field) (pieces : List Piece) (trailing : List Byte) :
    encode (.field f :: pieces) trailing =
      f.code :: Fin.ofNat _ f.value.length :: (f.value ++ encode pieces trailing) := by
  simp [encode, Piece.bytes]

theorem Field.length_val (f : Field) : (Fin.ofNat 256 f.value.length).val = f.value.length := by
  have := f.value_short
  rw [Fin.val_ofNat]
  omega

theorem Field.code_ne (f : Field) : f.code ≠ 0 ∧ f.code ≠ 255 := by
  obtain ⟨hlo, hhi⟩ := f.code_range
  constructor
  · rintro heq
    rw [heq] at hlo
    exact absurd hlo (by decide)
  · rintro heq
    rw [heq] at hhi
    exact absurd hhi (by decide)

/-- The first byte tells the first piece. -/
theorem cons_eq_encode {code : Byte} {rest : List Byte} {pieces : List Piece} {trailing : List Byte} :
    code :: rest = encode pieces trailing ↔
      (code = 255 ∧ pieces = [] ∧ rest = trailing) ∨
      (code = 0 ∧ ∃ tail, pieces = .pad :: tail ∧ rest = encode tail trailing) ∨
      ∃ f tail, pieces = .field f :: tail ∧ code = f.code ∧
        rest = Fin.ofNat _ f.value.length :: (f.value ++ encode tail trailing) := by
  cases pieces with
  | nil => simp [encode]
  | cons piece tail =>
    cases piece with
    | pad => simp [encode_pad]
    | field f => simp [encode_field]

/-- The codes of the options are distinct, and none of them is in the result so far. -/
def Fresh (result : Options) (fields : List Field) : Prop :=
  (fields.map Field.code).Nodup ∧ ∀ f ∈ fields, result.get f.code = none

theorem fresh_cons {result : Options} {f : Field} {fields : List Field} :
    Fresh result (f :: fields) ↔
      result.get f.code = none ∧ Fresh (result.set f.code f.value) fields := by
  unfold Fresh
  rw [List.map_cons, List.nodup_cons]
  constructor
  · rintro ⟨⟨hnot, hnodup⟩, hget⟩
    refine ⟨hget f List.mem_cons_self, hnodup, fun g hg => ?_⟩
    have hne : f.code ≠ g.code := by
      rintro heq
      rw [heq] at hnot
      exact hnot (List.mem_map_of_mem hg)
    rw [Dict.get_set, if_neg hne]
    exact hget g (List.mem_cons_of_mem _ hg)
  · rintro ⟨hf, hnodup, hget⟩
    have hnot : ∀ g ∈ fields, f.code ≠ g.code := by
      intro g hg heq
      have := hget g hg
      rw [Dict.get_set, if_pos heq] at this
      cases this
    refine ⟨⟨?_, hnodup⟩, fun g hg => ?_⟩
    · intro hmem
      obtain ⟨g, hg, heq⟩ := List.mem_map.mp hmem
      exact hnot g hg heq.symm
    · rcases List.mem_cons.mp hg with rfl | hg
      · exact hf
      · have := hget g hg
        rwa [Dict.get_set, if_neg (hnot g hg)] at this

/-- The loop accepts the encodings of fresh options, and adds them to the result. -/
theorem optionLoop_eq_ok {fuel : Nat} {bytes : List Byte} (hfuel : bytes.length ≤ fuel)
    {result out : Options} :
    optionLoop fuel bytes result = .ok out ↔ ∃ pieces trailing, bytes = encode pieces trailing ∧
      Fresh result (fieldsOf pieces) ∧ out = result ++ (fieldsOf pieces).map Field.entry := by
  induction fuel generalizing bytes result with
  | zero =>
    obtain rfl : bytes = [] := List.length_eq_zero_iff.mp (Nat.le_zero.mp hfuel)
    constructor
    · rintro ⟨⟩
    · rintro ⟨pieces, trailing, hbytes, -⟩
      exact absurd hbytes.symm (encode_ne_nil _ _)
  | succ fuel ih =>
    cases bytes with
    | nil =>
      constructor
      · rintro ⟨⟩
      · rintro ⟨pieces, trailing, hbytes, -⟩
        exact absurd hbytes.symm (encode_ne_nil _ _)
    | cons code rest =>
      rw [List.length_cons] at hfuel
      rw [optionLoop.eq_def]
      simp only
      by_cases hpad : code = 0
      · subst hpad
        rw [if_pos rfl, ih (by omega)]
        constructor
        · rintro ⟨pieces, trailing, rfl, hfresh, hout⟩
          exact ⟨.pad :: pieces, trailing, (encode_pad _ _).symm, hfresh, hout⟩
        · rintro ⟨pieces, trailing, hbytes, hfresh, hout⟩
          rcases cons_eq_encode.mp hbytes with ⟨h, -⟩ | ⟨-, tail, rfl, hrest⟩ | ⟨f, -, -, h, -⟩
          · cases h
          · exact ⟨tail, trailing, hrest, hfresh, hout⟩
          · exact absurd h.symm f.code_ne.1
      rw [if_neg hpad]
      by_cases hend : code = 255
      · subst hend
        rw [if_pos rfl]
        constructor
        · intro h
          cases h
          exact ⟨[], rest, rfl, by simp [Fresh], by simp⟩
        · rintro ⟨pieces, trailing, hbytes, -, hout⟩
          rcases cons_eq_encode.mp hbytes with ⟨-, rfl, -⟩ | ⟨h, -⟩ | ⟨f, -, -, h, -⟩
          · rw [hout, fieldsOf_nil, List.map_nil, List.append_nil]
          · cases h
          · exact absurd h.symm f.code_ne.2
      rw [if_neg hend]
      -- an option: every encoding of these bytes starts with it
      cases rest with
      | nil =>
        constructor
        · rintro ⟨⟩
        · rintro ⟨pieces, trailing, hbytes, -⟩
          rcases cons_eq_encode.mp hbytes with ⟨h, -⟩ | ⟨h, -⟩ | ⟨f, tail, -, -, h⟩
          · exact absurd h hend
          · exact absurd h hpad
          · cases h
      | cons length rest =>
        rw [List.length_cons] at hfuel
        simp only
        have hinvert : ∀ {pieces trailing}, code :: length :: rest = encode pieces trailing ↔
            ∃ f tail, pieces = .field f :: tail ∧ code = f.code ∧ length.val = f.value.length ∧
              rest = f.value ++ encode tail trailing := by
          intro pieces trailing
          rw [cons_eq_encode]
          constructor
          · rintro (⟨h, -⟩ | ⟨h, -⟩ | ⟨f, tail, rfl, hcode, hrest⟩)
            · exact absurd h hend
            · exact absurd h hpad
            · obtain ⟨hlength, hrest⟩ := List.cons.inj hrest
              exact ⟨f, tail, rfl, hcode, hlength ▸ f.length_val, hrest⟩
          · rintro ⟨f, tail, hpieces, hcode, hlength, hrest⟩
            refine Or.inr (Or.inr ⟨f, tail, hpieces, hcode, ?_⟩)
            rw [hrest, Fin.ext (hlength.trans f.length_val.symm)]
        by_cases hshort : rest.length < length.val
        · rw [if_pos hshort]
          constructor
          · rintro ⟨⟩
          · rintro ⟨pieces, trailing, hbytes, -⟩
            obtain ⟨f, tail, -, -, hlength, rfl⟩ := hinvert.mp hbytes
            rw [List.length_append] at hshort
            omega
        rw [if_neg hshort]
        by_cases hold : (result.get code).isSome = true
        · rw [if_pos hold]
          constructor
          · rintro ⟨⟩
          · rintro ⟨pieces, trailing, hbytes, hfresh, -⟩
            obtain ⟨f, tail, rfl, rfl, -⟩ := hinvert.mp hbytes
            rw [(fresh_cons.mp hfresh).1] at hold
            cases hold
        rw [if_neg hold, ih (by rw [List.length_drop]; omega)]
        have hnone : result.get code = none := by simpa using hold
        have hset : ∀ value : List Byte, result.set code value = result ++ [(code, value)] :=
          Dict.set_of_not_mem (Dict.get_eq_none.mp hnone)
        constructor
        · rintro ⟨pieces, trailing, hrest, hfresh, hout⟩
          have hcode : 1 ≤ code.val ∧ code.val ≤ 254 := by
            have h₀ : code.val ≠ 0 := fun h => hpad (Fin.ext h)
            have h₁ : code.val ≠ 255 := fun h => hend (Fin.ext h)
            have := code.isLt
            omega
          have hvalue : (rest.take length.val).length = length.val :=
            List.length_take_of_le (by omega)
          have := length.isLt
          refine ⟨.field ⟨code, rest.take length.val, hcode, by omega⟩ :: pieces, trailing,
            hinvert.mpr ⟨_, _, rfl, rfl, hvalue.symm, ?_⟩, ?_, ?_⟩
          · rw [← hrest, List.take_append_drop]
          · exact fresh_cons.mpr ⟨hnone, hfresh⟩
          · rw [hout, hset, fieldsOf_field, List.map_cons, List.append_assoc]
            rfl
        · rintro ⟨pieces, trailing, hbytes, hfresh, hout⟩
          obtain ⟨f, tail, rfl, rfl, hlength, rfl⟩ := hinvert.mp hbytes
          rw [hlength, List.take_left, List.drop_left]
          refine ⟨tail, trailing, rfl, (fresh_cons.mp hfresh).2, ?_⟩
          rw [hout, hset, fieldsOf_field, List.map_cons, List.append_assoc]
          rfl

/-! ## Main theorem -/

/-- Options with distinct codes. -/
structure OptionMap where
  fields : List Field
  distinct : (fields.map Field.code).Nodup

/-- The value under a code. -/
def OptionMap.get (m : OptionMap) (code : Byte) : Option (List Byte) :=
  Dict.get (m.fields.map Field.entry) code

/-- An encoding of the options in some order, with pads, after some header. -/
structure Encoding (m : OptionMap) where
  header : List Byte
  pieces : List Piece
  trailing : List Byte
  header_length : header.length = dhcpFixedBytes
  pieces_perm : (fieldsOf pieces).Perm m.fields

def Encoding.payload {m : OptionMap} (e : Encoding m) : List Byte :=
  e.header ++ encode e.pieces e.trailing

theorem map_fst_entry (fields : List Field) :
    (fields.map Field.entry).map Prod.fst = fields.map Field.code := by
  rw [List.map_map]
  rfl

/-- The order of the fields is of no account. -/
theorem get_entry_of_perm {m : OptionMap} {fields : List Field} (h : fields.Perm m.fields)
    (code : Byte) : Dict.get (fields.map Field.entry) code = m.get code := by
  have hkeys : Dict.KeysNodup (fields.map Field.entry) := by
    unfold Dict.KeysNodup
    rw [map_fst_entry]
    exact (h.map Field.code).nodup_iff.mpr m.distinct
  have hkeys' : Dict.KeysNodup (m.fields.map Field.entry) := by
    unfold Dict.KeysNodup
    rw [map_fst_entry]
    exact m.distinct
  unfold OptionMap.get
  cases hget : Dict.get (fields.map Field.entry) code with
  | none =>
    symm
    rw [Dict.get_eq_none] at hget ⊢
    intro hmem
    exact hget (((h.map Field.entry).map Prod.fst).mem_iff.mpr hmem)
  | some value =>
    symm
    exact Dict.get_of_mem hkeys' ((h.map Field.entry).mem_iff.mp (Dict.mem_of_get hget))

/-- `_options` accepts exactly the encodings of options with distinct codes, and returns these
options; and it decodes every encoding of a map to this map. -/
theorem options_exact :
    (∀ payload result, options payload = .ok result ↔ ∃ pieces trailing,
      payload.drop dhcpFixedBytes = encode pieces trailing ∧
      ((fieldsOf pieces).map Field.code).Nodup ∧ result = (fieldsOf pieces).map Field.entry) ∧
    ∀ (m : OptionMap) (e : Encoding m), ∃ result, options e.payload = .ok result ∧
      ∀ code, result.get code = m.get code := by
  have haccepts : ∀ payload result, options payload = .ok result ↔ ∃ pieces trailing,
      payload.drop dhcpFixedBytes = encode pieces trailing ∧
      ((fieldsOf pieces).map Field.code).Nodup ∧ result = (fieldsOf pieces).map Field.entry := by
    intro payload result
    have hfuel : (payload.drop dhcpFixedBytes).length ≤ payload.length := by
      rw [List.length_drop]
      omega
    unfold options
    rw [optionLoop_eq_ok hfuel]
    have hfresh : ∀ fields : List Field, Fresh [] fields ↔ (fields.map Field.code).Nodup := fun _ =>
      and_iff_left fun _ _ => rfl
    simp only [hfresh, List.nil_append]
  refine ⟨haccepts, fun m e => ⟨_, (haccepts _ _).mpr ⟨e.pieces, e.trailing, ?_, ?_, rfl⟩, ?_⟩⟩
  · exact List.drop_left' e.header_length
  · exact (e.pieces_perm.map Field.code).nodup_iff.mpr m.distinct
  · exact get_entry_of_perm e.pieces_perm

end FieldDiscovery.Passive.Dhcp
