import FieldDiscovery.Lib.Framing
import FieldDiscovery.Lib.Separated
import FieldDiscovery.Lib.Utf8
import FieldDiscovery.Passive.Dhcp

/-!
# Reading DNS names

`_read_name` of `mdns.py`: the labels of a name that stands in a message, and the offset behind it. A
name may end in a pointer to another place, and pointers may lead anywhere, so the loop bounds their
number. `Spells` derives the labels of a place by the rules of the format, and the loop accepts what
has a derivation within the bounds (`readLabels_eq_ok`). No bound is on the places that a derivation
passes: it never comes to one twice, so the check for loops rejects nothing.
-/

namespace FieldDiscovery.Passive.Dns

open Py Framing Dhcp

/-! ## The loop -/

/-- `_MAX_POINTER_JUMPS` -/
def maxPointerJumps : Nat := 16

/-- The local variables of `_read_name`. -/
structure Reading where
  labels : List Str
  cursor : Nat
  consumed : Option Nat
  visited : List Nat
  wireLength : Nat
  jumps : Nat

/-- What a pass of the loop leads to. -/
inductive Pass where
  | next (r : Reading)
  | done (labels : List Str) (consumed : Nat)

/-- The body of the loop. -/
def pass (message : List Byte) (r : Reading) : Except Exc Pass :=
  match message[r.cursor]? with
  | none => passiveParseError (str "truncated mDNS name")
  | some length =>
    if length.val / 64 = 3 then
      match message[r.cursor + 1]? with
      | none => passiveParseError (str "truncated mDNS compression pointer")
      | some low =>
        let pointer := length.val % 64 * 256 + low.val
        if message.length ≤ pointer ∨ pointer ∈ r.visited ∨ maxPointerJumps ≤ r.jumps then
          passiveParseError (str "invalid or looping mDNS compression pointer")
        else
          .ok (.next { r with
            visited := pointer :: r.visited
            jumps := r.jumps + 1
            consumed := some (r.consumed.getD (r.cursor + 2))
            cursor := pointer })
    else if length.val / 64 ≠ 0 then passiveParseError (str "invalid mDNS label encoding")
    else
      let cursor := r.cursor + 1
      if length = 0 then .ok (.done r.labels (r.consumed.getD cursor))
      else if message.length < cursor + length.val then
        passiveParseError (str "invalid or truncated mDNS label")
      else if 255 < r.wireLength + (length.val + 1) then
        passiveParseError (str "mDNS name exceeds DNS wire limit")
      else
        match decodeUtf8 (slice message cursor (cursor + length.val)) with
        | none => passiveParseError (str "invalid UTF-8 in mDNS name")
        | some label =>
          if label.any (·.val < 0x20) then passiveParseError (str "invalid mDNS label")
          else
            .ok (.next { r with
              labels := r.labels ++ [label]
              cursor := cursor + length.val
              wireLength := r.wireLength + (length.val + 1) })

/-- A pass follows one of at most sixteen pointers, or moves on. -/
theorem pass_decreases {message : List Byte} {r r' : Reading} (h : pass message r = .ok (.next r')) :
    Prod.Lex (· < ·) (· < ·) (maxPointerJumps - r'.jumps, message.length - r'.cursor)
      (maxPointerJumps - r.jumps, message.length - r.cursor) := by
  unfold pass at h
  cases hbyte : message[r.cursor]? with
  | none =>
    rw [hbyte] at h
    cases h
  | some length =>
    obtain ⟨hcursor, -⟩ := List.getElem?_eq_some_iff.mp hbyte
    rw [hbyte] at h
    simp only at h
    split at h
    · split at h
      · cases h
      · split at h
        · cases h
        · next hfree =>
          cases h
          simp only [not_or, Nat.not_le] at hfree
          exact .left _ _ (by simp only; omega)
    split at h
    · cases h
    split at h
    · cases h
    split at h
    · cases h
    split at h
    · cases h
    split at h
    · cases h
    · split at h
      · cases h
      · cases h
        exact .right _ (by simp only; omega)

/-- The loop, from some pass on. -/
def readFrom (message : List Byte) (r : Reading) : Except Exc (List Str × Nat) :=
  match _h : pass message r with
  | .error e => .error e
  | .ok (.done labels consumed) => .ok (labels, consumed)
  | .ok (.next r') => readFrom message r'
termination_by (maxPointerJumps - r.jumps, message.length - r.cursor)
decreasing_by exact pass_decreases _h

/-- The variables before the first pass. -/
def start (offset : Nat) : Reading := ⟨[], offset, none, [], 1, 0⟩

/-- `_read_name` up to its last line: the labels as they were decoded. -/
def readLabels (message : List Byte) (offset : Nat) : Except Exc (List Str × Nat) :=
  if message.length ≤ offset then passiveParseError (str "truncated mDNS name")
  else readFrom message (start offset)

/-- `_read_name` -/
def readName (rt : Runtime) (message : List Byte) (offset : Nat) : Except Exc (Str × Nat) := do
  let (labels, consumed) ← readLabels message offset
  .ok (rt.casefold (join (str ".") labels), consumed)

/-! ## Bytes at a position -/

/-- These bytes stand in the message from the position on. -/
def StandsAt (message : List Byte) (i : Nat) (bytes : List Byte) : Prop := bytes <+: message.drop i

section StandsAt

variable {message : List Byte} {i : Nat}

theorem standsAt_nil : StandsAt message i [] := List.nil_prefix

theorem standsAt_cons {b : Byte} {bytes : List Byte} :
    StandsAt message i (b :: bytes) ↔ message[i]? = some b ∧ StandsAt message (i + 1) bytes := by
  unfold StandsAt
  by_cases hi : i < message.length
  · rw [List.drop_eq_getElem_cons hi, List.cons_prefix_cons, List.getElem?_eq_getElem hi,
      Option.some.injEq, eq_comm]
  · rw [List.drop_eq_nil_of_le (Nat.not_lt.mp hi), List.getElem?_eq_none (Nat.not_lt.mp hi)]
    simp

theorem standsAt_append {front back : List Byte} :
    StandsAt message i (front ++ back) ↔
      StandsAt message i front ∧ StandsAt message (i + front.length) back := by
  induction front generalizing i with
  | nil => simp [standsAt_nil]
  | cons b front ih =>
    rw [List.cons_append, standsAt_cons, standsAt_cons, ih, and_assoc, List.length_cons,
      Nat.add_right_comm, Nat.add_assoc]

theorem StandsAt.le_length {bytes : List Byte} (h : StandsAt message i bytes) (hi : i ≤ message.length) :
    i + bytes.length ≤ message.length := by
  have := h.length_le
  rw [List.length_drop] at this
  omega

theorem standsAt_iff_slice {bytes : List Byte} {n : Nat} (hn : bytes.length = n) :
    StandsAt message i bytes ↔ slice message i (i + n) = bytes := by
  unfold StandsAt slice
  rw [List.prefix_iff_eq_take, hn, List.drop_take, Nat.add_sub_cancel_left, eq_comm]

/-- What stands in a message stays there when the message goes on. -/
theorem StandsAt.append {bytes : List Byte} (h : StandsAt message i bytes) (tail : List Byte) :
    StandsAt (message ++ tail) i bytes := h.trans ((List.prefix_append _ _).drop i)

theorem standsAt_end (message bytes tail : List Byte) :
    StandsAt (message ++ (bytes ++ tail)) message.length bytes := by
  unfold StandsAt
  rw [List.drop_left]
  exact List.prefix_append _ _

end StandsAt

/-! ## Names in a message -/

/-- A label with an encoding. -/
structure Label where
  text : Str
  encodable : Encodable text
  printable : ∀ c ∈ text, 0x20 ≤ c.val
  size : 1 ≤ (text.flatMap utf8Char).length ∧ (text.flatMap utf8Char).length ≤ 63

namespace Label

def data (l : Label) : List Byte := l.text.flatMap utf8Char

/-- The length and the text. -/
def wire (l : Label) : List Byte := Fin.ofNat _ l.data.length :: l.data

theorem ext {l k : Label} (h : l.text = k.text) : l = k := by
  obtain ⟨text, encodable, printable, size⟩ := l
  obtain ⟨text', encodable', printable', size'⟩ := k
  obtain rfl : text = text' := h
  rfl

theorem length_val (l : Label) : (Fin.ofNat 256 l.data.length).val = l.data.length := by
  have h : l.data.length ≤ 63 := l.size.2
  exact byte_val (by omega)

theorem length_wire (l : Label) : l.wire.length = l.data.length + 1 := rfl

end Label

/-- The encoding of a pointer. -/
def pointer (target : Nat) : List Byte := word (0xC000 + target)

/-- Labels one after the other. -/
def spell (labels : List Label) : List Byte := labels.flatMap Label.wire

/-- The length of a name without compression. -/
def wireLength (labels : List Label) : Nat := 1 + (spell labels).length

/-- `Spells message i labels jumps next`: from position `i` on, and over some jumps, the message
spells a name with these labels. The name as far as the first jump ends before `next`. -/
inductive Spells (message : List Byte) : Nat → List Label → Nat → Nat → Prop where
  | terminator {i : Nat} : StandsAt message i [0] → Spells message i [] 0 (i + 1)
  | pointer {i target jumps next : Nat} {labels : List Label} : target < 0x4000 →
      StandsAt message i (pointer target) → Spells message target labels jumps next →
      Spells message i labels (jumps + 1) (i + 2)
  | label {i jumps next : Nat} {l : Label} {labels : List Label} : StandsAt message i l.wire →
      Spells message (i + l.wire.length) labels jumps next → Spells message i (l :: labels) jumps next

@[simp] theorem spell_cons (l : Label) (labels : List Label) :
    spell (l :: labels) = l.wire ++ spell labels := rfl

/-! ## Passes -/

section Passes

variable {message : List Byte} {r : Reading}

theorem pass_terminator (h : StandsAt message r.cursor [0]) :
    pass message r = .ok (.done r.labels (r.consumed.getD (r.cursor + 1))) := by
  unfold pass
  rw [(standsAt_cons.mp h).1]
  rfl

/-- The variables after a pass that follows a pointer. -/
def Reading.jump (r : Reading) (target : Nat) : Reading :=
  { r with
    visited := target :: r.visited
    jumps := r.jumps + 1
    consumed := some (r.consumed.getD (r.cursor + 2))
    cursor := target }

/-- The variables after a pass that reads a label. -/
def Reading.take (r : Reading) (l : Label) : Reading :=
  { r with
    labels := r.labels ++ [l.text]
    cursor := r.cursor + l.wire.length
    wireLength := r.wireLength + l.wire.length }

theorem pass_pointer {target : Nat} (htarget : target < 0x4000)
    (h : StandsAt message r.cursor (pointer target)) :
    pass message r =
      if message.length ≤ target ∨ target ∈ r.visited ∨ maxPointerJumps ≤ r.jumps then
        passiveParseError (str "invalid or looping mDNS compression pointer")
      else .ok (.next (r.jump target)) := by
  unfold pointer word at h
  obtain ⟨hhigh, hrest⟩ := standsAt_cons.mp h
  obtain ⟨hlow, -⟩ := standsAt_cons.mp hrest
  unfold pass
  rw [hhigh]
  simp only
  rw [hlow, byte_val (by omega), if_pos (by omega)]
  simp only
  have htarget : (0xC000 + target) / 256 % 64 * 256 +
      (Fin.ofNat 256 ((0xC000 + target) % 256)).val = target := by
    rw [byte_val (by omega)]
    omega
  rw [htarget]
  rfl

theorem pass_label {l : Label} (h : StandsAt message r.cursor l.wire) :
    pass message r =
      if 255 < r.wireLength + l.wire.length then
        passiveParseError (str "mDNS name exceeds DNS wire limit")
      else .ok (.next (r.take l)) := by
  obtain ⟨hlo, hhi⟩ : 1 ≤ l.data.length ∧ l.data.length ≤ 63 := l.size
  obtain ⟨hlength, hdata⟩ := standsAt_cons.mp h
  have hbound : r.cursor + 1 + l.data.length ≤ message.length := by
    obtain ⟨hcursor, -⟩ := List.getElem?_eq_some_iff.mp hlength
    exact hdata.le_length hcursor
  have hslice := (standsAt_iff_slice rfl).mp hdata
  have hdecoded : decodeUtf8 l.data = some l.text := decodeUtf8_eq_some.mpr ⟨l.encodable, rfl⟩
  have hnonzero : Fin.ofNat 256 l.data.length ≠ 0 := by
    intro hzero
    have := l.length_val
    rw [hzero, Fin.val_zero] at this
    omega
  have hprintable : ¬ l.text.any (·.val < 0x20) = true := by
    rw [List.any_eq_true]
    rintro ⟨c, hc, hlow⟩
    exact absurd (of_decide_eq_true hlow) (Nat.not_lt.mpr (l.printable c hc))
  unfold pass
  rw [hlength]
  simp only
  rw [if_neg hnonzero, l.length_val, if_neg (by omega), if_neg (by omega), if_neg (by omega), hslice,
    hdecoded, Label.length_wire]
  simp only
  rw [if_neg hprintable]
  unfold Reading.take
  rw [Label.length_wire, Nat.add_assoc, Nat.add_comm 1 l.data.length]

/-- A pass that does not raise has read a part of a name. -/
theorem pass_ok {p : Pass} (h : pass message r = .ok p) :
    StandsAt message r.cursor [0] ∨
    (∃ target, target < 0x4000 ∧ StandsAt message r.cursor (pointer target)) ∨
    ∃ l : Label, StandsAt message r.cursor l.wire := by
  unfold pass at h
  cases hbyte : message[r.cursor]? with
  | none =>
    rw [hbyte] at h
    cases h
  | some length =>
    rw [hbyte] at h
    simp only at h
    have hlt := length.isLt
    by_cases hpointer : length.val / 64 = 3
    · rw [if_pos hpointer] at h
      cases hlow : message[r.cursor + 1]? with
      | none =>
        rw [hlow] at h
        cases h
      | some low =>
        have := low.isLt
        have hword : pointer (length.val % 64 * 256 + low.val) = [length, low] := by
          refine (pair_eq_word.mpr ?_).1.symm
          rw [fromBytes_pair]
          omega
        refine .inr (.inl ⟨length.val % 64 * 256 + low.val, by omega, ?_⟩)
        rw [hword, standsAt_cons, standsAt_cons]
        exact ⟨hbyte, hlow, standsAt_nil⟩
    rw [if_neg hpointer] at h
    by_cases hencoding : length.val / 64 = 0
    swap
    · rw [if_pos hencoding] at h
      cases h
    rw [if_neg (not_not.mpr hencoding)] at h
    by_cases hzero : length = 0
    · subst hzero
      exact .inl (standsAt_cons.mpr ⟨hbyte, standsAt_nil⟩)
    rw [if_neg hzero] at h
    by_cases hbound : message.length < r.cursor + 1 + length.val
    · rw [if_pos hbound] at h
      cases h
    rw [if_neg hbound] at h
    by_cases hwire : 255 < r.wireLength + (length.val + 1)
    · rw [if_pos hwire] at h
      cases h
    rw [if_neg hwire] at h
    cases hdecoded : decodeUtf8 (slice message (r.cursor + 1) (r.cursor + 1 + length.val)) with
    | none =>
      rw [hdecoded] at h
      cases h
    | some text =>
      rw [hdecoded] at h
      simp only at h
      by_cases hlow : text.any (·.val < 0x20) = true
      · rw [if_pos hlow] at h
        cases h
      obtain ⟨hencodable, hdata⟩ := decodeUtf8_eq_some.mp hdecoded
      have hlength : (text.flatMap utf8Char).length = length.val := by
        rw [hdata]
        unfold slice
        rw [List.length_drop, List.length_take_of_le (by omega)]
        omega
      have hpos : length.val ≠ 0 := fun h => hzero (Fin.ext h)
      have hprintable : ∀ c ∈ text, 0x20 ≤ c.val := by
        intro c hc
        by_contra hchar
        exact hlow (List.any_eq_true.mpr ⟨c, hc, decide_eq_true (Nat.not_le.mp hchar)⟩)
      obtain ⟨l, rfl⟩ : ∃ l : Label, l.text = text :=
        ⟨⟨text, hencodable, hprintable, by omega⟩, rfl⟩
      refine .inr (.inr ⟨l, standsAt_cons.mpr ⟨?_, ?_⟩⟩)
      · rw [hbyte]
        exact congrArg some (Fin.ext (hlength.symm.trans l.length_val.symm))
      · exact (standsAt_iff_slice hlength).mpr hdata.symm

end Passes

/-! ## Places -/

section Places

variable {message : List Byte} {i : Nat}

theorem StandsAt.head {b c : Byte} {bytes bytes' : List Byte} (h : StandsAt message i (b :: bytes))
    (h' : StandsAt message i (c :: bytes')) : b = c :=
  Option.some.inj ((standsAt_cons.mp h).1.symm.trans (standsAt_cons.mp h').1)

/-- The first byte tells a terminator, a pointer and a label apart, and it is all of the pointer or
label that it takes to tell two of them apart. -/
theorem pointer_ne_zero {target : Nat} (htarget : target < 0x4000) :
    ¬ (StandsAt message i (pointer target) ∧ StandsAt message i [0]) := by
  rintro ⟨h, h'⟩
  have hval := congrArg Fin.val (h.head h')
  rw [byte_val (by omega), Fin.val_zero] at hval
  omega

theorem label_ne_zero {l : Label} :
    ¬ (StandsAt message i l.wire ∧ StandsAt message i [0]) := by
  rintro ⟨h, h'⟩
  have hsize : 1 ≤ l.data.length := l.size.1
  have hval := congrArg Fin.val (h.head h')
  rw [l.length_val, Fin.val_zero] at hval
  omega

theorem label_ne_pointer {l : Label} {target : Nat} (htarget : target < 0x4000) :
    ¬ (StandsAt message i l.wire ∧ StandsAt message i (pointer target)) := by
  rintro ⟨h, h'⟩
  have hsize : l.data.length ≤ 63 := l.size.2
  have hval := congrArg Fin.val (h.head h')
  rw [l.length_val, byte_val (by omega)] at hval
  omega

theorem pointer_inj {target target' : Nat} (htarget : target < 0x4000) (htarget' : target' < 0x4000)
    (h : StandsAt message i (pointer target)) (h' : StandsAt message i (pointer target')) :
    target = target' := by
  have heq : pointer target = pointer target' :=
    ((standsAt_iff_slice rfl).mp h).symm.trans ((standsAt_iff_slice rfl).mp h')
  have hnumber := congrArg fromBytes heq
  unfold pointer at hnumber
  rw [fromBytes_word (by omega), fromBytes_word (by omega)] at hnumber
  omega

theorem label_inj {l k : Label} (h : StandsAt message i l.wire) (h' : StandsAt message i k.wire) :
    l = k := by
  have hlength : l.data.length = k.data.length := by
    rw [← l.length_val, ← k.length_val]
    exact congrArg Fin.val (h.head h')
  have hdata : l.data = k.data :=
    ((standsAt_iff_slice rfl).mp (standsAt_cons.mp h).2).symm.trans
      ((standsAt_iff_slice hlength.symm).mp (standsAt_cons.mp h').2)
  exact Label.ext (flatMap_utf8Char_injective hdata)

/-- A place spells one name, over one number of jumps. -/
theorem Spells.unique {labels labels' : List Label} {jumps jumps' next next' : Nat}
    (h : Spells message i labels jumps next) (h' : Spells message i labels' jumps' next') :
    labels = labels' ∧ jumps = jumps' ∧ next = next' := by
  induction h generalizing labels' jumps' next' with
  | terminator hzero =>
    cases h' with
    | terminator => exact ⟨rfl, rfl, rfl⟩
    | pointer htarget hpointer _ => exact absurd ⟨hpointer, hzero⟩ (pointer_ne_zero htarget)
    | label hlabel _ => exact absurd ⟨hlabel, hzero⟩ label_ne_zero
  | pointer htarget hpointer _ ih =>
    cases h' with
    | terminator hzero => exact absurd ⟨hpointer, hzero⟩ (pointer_ne_zero htarget)
    | pointer htarget' hpointer' htail =>
      obtain rfl := pointer_inj htarget htarget' hpointer hpointer'
      obtain ⟨hlabels, hjumps, -⟩ := ih htail
      exact ⟨hlabels, congrArg (· + 1) hjumps, rfl⟩
    | label hlabel _ => exact absurd ⟨hlabel, hpointer⟩ (label_ne_pointer htarget)
  | label hlabel _ ih =>
    cases h' with
    | terminator hzero => exact absurd ⟨hlabel, hzero⟩ label_ne_zero
    | pointer htarget hpointer _ => exact absurd ⟨hlabel, hpointer⟩ (label_ne_pointer htarget)
    | label hlabel' htail =>
      obtain rfl := label_inj hlabel hlabel'
      obtain ⟨hlabels, hjumps, hnext⟩ := ih htail
      exact ⟨congrArg _ hlabels, hjumps, hnext⟩

theorem Spells.lt_length {labels : List Label} {jumps next : Nat}
    (h : Spells message i labels jumps next) : i < message.length := by
  have hhead : ∀ {b : Byte} {bytes : List Byte}, StandsAt message i (b :: bytes) →
      i < message.length := fun h =>
    (List.getElem?_eq_some_iff.mp (standsAt_cons.mp h).1).1
  cases h with
  | terminator hzero => exact hhead hzero
  | pointer _ hpointer _ => exact hhead hpointer
  | label hlabel _ => exact hhead hlabel

end Places

/-! ## The loop -/

section Loop

variable {message : List Byte} {r : Reading}

theorem readFrom_done {labels : List Str} {consumed : Nat}
    (h : pass message r = .ok (.done labels consumed)) :
    readFrom message r = .ok (labels, consumed) := by
  rw [readFrom.eq_def]
  split
  · next heq => cases h.symm.trans heq
  · next heq =>
    cases h.symm.trans heq
    rfl
  · next heq => cases h.symm.trans heq

theorem readFrom_next {r' : Reading} (h : pass message r = .ok (.next r')) :
    readFrom message r = readFrom message r' := by
  conv_lhs => rw [readFrom.eq_def]
  split
  · next heq => cases h.symm.trans heq
  · next heq => cases h.symm.trans heq
  · next heq =>
    cases h.symm.trans heq
    rfl

theorem readFrom_error {e : Exc} (h : pass message r = .error e) :
    readFrom message r = .error e := by
  rw [readFrom.eq_def]
  split
  · next heq =>
    cases h.symm.trans heq
    rfl
  · next heq => cases h.symm.trans heq
  · next heq => cases h.symm.trans heq

/-- What the loop adds to its variables is spelled from the cursor on. -/
theorem readFrom_sound {labels : List Str} {n : Nat} (hjumps : r.jumps ≤ maxPointerJumps)
    (hwire : r.wireLength ≤ 255) (h : readFrom message r = .ok (labels, n)) :
    ∃ added jumps next, Spells message r.cursor added jumps next ∧
      r.jumps + jumps ≤ maxPointerJumps ∧ r.wireLength + (spell added).length ≤ 255 ∧
      labels = r.labels ++ added.map Label.text ∧ n = r.consumed.getD next := by
  induction r using readFrom.induct message with
  | case1 r e hpass =>
    rw [readFrom_error hpass] at h
    cases h
  | case2 r labels' consumed hpass =>
    rw [readFrom_done hpass] at h
    cases h
    rcases pass_ok hpass with hzero | ⟨target, htarget, hpointer⟩ | ⟨l, hlabel⟩
    · rw [pass_terminator hzero] at hpass
      cases hpass
      exact ⟨[], 0, _, .terminator hzero, hjumps, hwire, (List.append_nil _).symm, rfl⟩
    · rw [pass_pointer htarget hpointer] at hpass
      split at hpass
      · cases hpass
      · cases hpass
    · rw [pass_label hlabel] at hpass
      split at hpass
      · cases hpass
      · cases hpass
  | case3 r r' hpass ih =>
    rw [readFrom_next hpass] at h
    rcases pass_ok hpass with hzero | ⟨target, htarget, hpointer⟩ | ⟨l, hlabel⟩
    · rw [pass_terminator hzero] at hpass
      cases hpass
    · rw [pass_pointer htarget hpointer] at hpass
      split at hpass
      · cases hpass
      · next hfree =>
        cases hpass
        simp only [not_or, Nat.not_le] at hfree
        obtain ⟨added, jumps, next, hspells, hbound, hlength, hlabels, hn⟩ := ih hfree.2.2 hwire h
        refine ⟨added, jumps + 1, _, .pointer htarget hpointer hspells, ?_, hlength, hlabels, hn⟩
        simp only [Reading.jump] at hbound
        omega
    · rw [pass_label hlabel] at hpass
      split at hpass
      · cases hpass
      · next hfree =>
        cases hpass
        obtain ⟨added, jumps, next, hspells, hbound, hlength, hlabels, hn⟩ :=
          ih hjumps (Nat.not_lt.mp hfree) h
        refine ⟨l :: added, jumps, next, .label hlabel hspells, hbound, ?_, ?_, hn⟩
        · rw [spell_cons, List.length_append, ← Nat.add_assoc]
          exact hlength
        · rw [hlabels, List.map_cons]
          exact List.append_assoc _ _ _

/-- The loop reads what is spelled; the places it has been to are further from the end. -/
theorem readFrom_complete {i : Nat} {added : List Label} {jumps next : Nat}
    (h : Spells message i added jumps next) (hcursor : r.cursor = i)
    (hjumps : r.jumps + jumps ≤ maxPointerJumps)
    (hwire : r.wireLength + (spell added).length ≤ 255)
    (hvisited : ∀ p ∈ r.visited, ∃ labels k n, Spells message p labels k n ∧ jumps ≤ k) :
    readFrom message r = .ok (r.labels ++ added.map Label.text, r.consumed.getD next) := by
  induction h generalizing r with
  | terminator hzero =>
    subst hcursor
    rw [readFrom_done (pass_terminator hzero), List.map_nil, List.append_nil]
  | @pointer i target jumps next labels htarget hpointer htail ih =>
    subst hcursor
    have hfresh : target ∉ r.visited := by
      intro hmem
      obtain ⟨labels', k, n, hspells, hle⟩ := hvisited target hmem
      obtain ⟨-, rfl, -⟩ := hspells.unique htail
      omega
    have hpass := pass_pointer htarget hpointer
    rw [if_neg (by
      simp only [not_or, Nat.not_le]
      exact ⟨htail.lt_length, hfresh, by omega⟩)] at hpass
    rw [readFrom_next hpass]
    refine ih rfl ?_ hwire ?_
    · simp only [Reading.jump]
      omega
    · intro p hp
      rcases List.mem_cons.mp hp with rfl | hp
      · exact ⟨_, _, _, htail, Nat.le_refl _⟩
      · obtain ⟨labels', k, n, hspells, hle⟩ := hvisited p hp
        exact ⟨labels', k, n, hspells, by omega⟩
  | @label i jumps next l labels hlabel htail ih =>
    subst hcursor
    rw [spell_cons, List.length_append] at hwire
    have hpass := pass_label hlabel
    rw [if_neg (by omega)] at hpass
    have hrest := ih (r := r.take l) rfl hjumps (by
      simp only [Reading.take]
      omega) hvisited
    rw [readFrom_next hpass, hrest, List.map_cons]
    simp only [Reading.take, List.append_assoc, List.singleton_append]

/-- The labels of a place are read exactly when they are spelled there, within the bounds. -/
theorem readLabels_eq_ok {i : Nat} {labels : List Str} {next : Nat} :
    readLabels message i = .ok (labels, next) ↔ ∃ spelled jumps,
      Spells message i spelled jumps next ∧ jumps ≤ maxPointerJumps ∧ wireLength spelled ≤ 255 ∧
      labels = spelled.map Label.text := by
  unfold readLabels
  constructor
  · intro h
    by_cases hi : message.length ≤ i
    · rw [if_pos hi] at h
      cases h
    rw [if_neg hi] at h
    obtain ⟨spelled, jumps, n, hspells, hjumps, hwire, hlabels, rfl⟩ :=
      readFrom_sound (Nat.zero_le _) (Nat.le_add_left 1 254) h
    exact ⟨spelled, jumps, hspells, by simpa [start] using hjumps, hwire, hlabels⟩
  · rintro ⟨spelled, jumps, hspells, hjumps, hwire, rfl⟩
    rw [if_neg (Nat.not_le.mpr hspells.lt_length)]
    refine readFrom_complete hspells rfl ?_ hwire fun _ h => absurd h List.not_mem_nil
    simpa [start] using hjumps

end Loop

/-! ## The end of a name -/

/-- The name as far as it stands in one piece: labels, then a terminator, or a pointer to where the
other labels are spelled. -/
inductive Covers (message : List Byte) (labels : List Label) (jumps : Nat) : List Byte → Prop where
  | terminator : jumps = 0 → Covers message labels jumps (spell labels ++ [0])
  | pointer {front rest : List Label} {target k next : Nat} : labels = front ++ rest →
      jumps = k + 1 → target < 0x4000 → Spells message target rest k next →
      Covers message labels jumps (spell front ++ pointer target)

theorem slice_split {message : List Byte} {i j k : Nat} (hij : i ≤ j) (hjk : j ≤ k)
    (hk : k ≤ message.length) :
    slice message i k = slice message i j ++ slice message j k := by
  unfold slice
  have htake : message.take j = (message.take k).take j := by
    rw [List.take_take, Nat.min_eq_left hjk]
  have hlength : ((message.take k).take j).length = j := by
    rw [← htake, List.length_take_of_le (hjk.trans hk)]
  rw [htake, ← List.drop_append_of_le_length (hij.trans hlength.ge), List.take_append_drop]

/-- The offset behind a name is in the message, and it covers the name as far as it stands in one
piece. -/
theorem Spells.covers {message : List Byte} {i : Nat} {labels : List Label} {jumps next : Nat}
    (h : Spells message i labels jumps next) : i < next ∧ next ≤ message.length ∧
      Covers message labels jumps (slice message i next) := by
  have hpiece : ∀ {n : Nat} {bytes : List Byte}, StandsAt message n bytes → n < message.length →
      n + bytes.length ≤ message.length ∧ slice message n (n + bytes.length) = bytes :=
    fun hbytes hn => ⟨hbytes.le_length hn.le, (standsAt_iff_slice rfl).mp hbytes⟩
  have hlt := h.lt_length
  induction h with
  | terminator hzero =>
    obtain ⟨hle, hslice⟩ := hpiece hzero hlt
    refine ⟨Nat.lt_succ_self _, hle, ?_⟩
    rw [List.length_singleton] at hslice
    rw [hslice]
    exact .terminator rfl
  | pointer htarget hpointer htail _ =>
    obtain ⟨hle, hslice⟩ := hpiece hpointer hlt
    refine ⟨by omega, hle, ?_⟩
    rw [show slice message _ (_ + 2) = _ from hslice]
    exact .pointer (List.nil_append _).symm rfl htarget htail
  | @label i jumps next l labels hlabel htail ih =>
    obtain ⟨hle, hslice⟩ := hpiece hlabel hlt
    obtain ⟨hi, hnext, hcovers⟩ := ih htail.lt_length
    refine ⟨by omega, hnext, ?_⟩
    rw [slice_split (Nat.le_add_right i _) hi.le hnext, hslice]
    generalize slice message (i + l.wire.length) next = bytes at hcovers
    cases hcovers with
    | terminator hjumps =>
      rw [← List.append_assoc, ← spell_cons]
      exact .terminator hjumps
    | pointer hlabels hjumps htarget hrest =>
      rw [← List.append_assoc, ← spell_cons]
      exact .pointer (congrArg _ hlabels) hjumps htarget hrest

/-! ## Writing with compression -/

/-- A place where a message spells labels, over some jumps. -/
structure Place where
  position : Nat
  labels : List Label
  jumps : Nat

/-- The places of a name that is written from `position` on: labels that stand there, and labels that
stand elsewhere behind some jumps. Each suffix of the name has its place. -/
def places (position : Nat) : List Label → List Label → Nat → List Place
  | [], rest, jumps => [⟨position, rest, jumps⟩]
  | l :: front, rest, jumps =>
    ⟨position, l :: (front ++ rest), jumps⟩ :: places (position + l.wire.length) front rest jumps

/-- A message under construction, with the places of all complete suffixes that are in it. A name is
written out, or ends in a pointer to an earlier place; anything may stand between names. -/
inductive Written : List Byte → List Place → Prop where
  | nil : Written [] []
  | bytes {message : List Byte} {table : List Place} (raw : List Byte) : Written message table →
      Written (message ++ raw) table
  | name {message : List Byte} {table : List Place} (labels : List Label) : Written message table →
      Written (message ++ (spell labels ++ [0])) (table ++ places message.length labels [] 0)
  | compressed {message : List Byte} {table : List Place} (front : List Label) {p : Place} :
      Written message table → p ∈ table → p.position < 0x4000 →
      Written (message ++ (spell front ++ pointer p.position))
        (table ++ places message.length front p.labels (p.jumps + 1))

theorem Spells.append {message : List Byte} {i : Nat} {labels : List Label} {jumps next : Nat}
    (h : Spells message i labels jumps next) (tail : List Byte) :
    Spells (message ++ tail) i labels jumps next := by
  induction h with
  | terminator hzero => exact .terminator (hzero.append tail)
  | pointer htarget hpointer _ ih => exact .pointer htarget (hpointer.append tail) ih
  | label hlabel _ ih => exact .label (hlabel.append tail) ih

/-- The places of a name are spelled when its labels stand there, with an end that spells the rest. -/
theorem spells_places {message : List Byte} {position : Nat} {front rest : List Label} {jumps : Nat}
    (hfront : StandsAt message position (spell front))
    (hend : ∃ next, Spells message (position + (spell front).length) rest jumps next) :
    ∀ p ∈ places position front rest jumps, ∃ next, Spells message p.position p.labels p.jumps next := by
  induction front generalizing position with
  | nil =>
    intro p hp
    rw [places, List.mem_singleton] at hp
    subst hp
    exact hend
  | cons l front ih =>
    rw [spell_cons, standsAt_append] at hfront
    rw [spell_cons, List.length_append, ← Nat.add_assoc] at hend
    have htail := ih hfront.2 hend
    intro p hp
    rw [places, List.mem_cons] at hp
    rcases hp with rfl | hp
    · have hspells : ∃ next, Spells message (position + l.wire.length) (front ++ rest) jumps next := by
        cases front with
        | nil => exact hend
        | cons k front => exact htail _ List.mem_cons_self
      obtain ⟨next, hspells⟩ := hspells
      exact ⟨next, .label hfront.1 hspells⟩
    · exact htail p hp

/-- Every place of the table is spelled in the message. -/
theorem Written.spells {message : List Byte} {table : List Place} (h : Written message table) :
    ∀ p ∈ table, ∃ next, Spells message p.position p.labels p.jumps next := by
  induction h with
  | nil => exact fun p hp => absurd hp List.not_mem_nil
  | bytes raw _ ih =>
    intro p hp
    obtain ⟨next, hspells⟩ := ih p hp
    exact ⟨next, hspells.append raw⟩
  | @name message table labels _ ih =>
    intro p hp
    rcases List.mem_append.mp hp with hp | hp
    · obtain ⟨next, hspells⟩ := ih p hp
      exact ⟨next, hspells.append _⟩
    · have hwhole := standsAt_end message (spell labels ++ [0]) []
      rw [List.append_nil, standsAt_append] at hwhole
      exact spells_places hwhole.1 ⟨_, .terminator hwhole.2⟩ p hp
  | @compressed message table front q _ hq htarget ih =>
    intro p hp
    rcases List.mem_append.mp hp with hp | hp
    · obtain ⟨next, hspells⟩ := ih p hp
      exact ⟨next, hspells.append _⟩
    · have hwhole := standsAt_end message (spell front ++ pointer q.position) []
      rw [List.append_nil, standsAt_append] at hwhole
      obtain ⟨next, hspells⟩ := ih q hq
      exact spells_places hwhole.1 ⟨_, .pointer htarget hwhole.2 (hspells.append _)⟩ p hp

/-- A name in a message that was written with compression, within the bounds of the reader. -/
structure Stored where
  message : List Byte
  table : List Place
  written : Written message table
  place : Place
  mem_table : place ∈ table
  few : place.jumps ≤ maxPointerJumps
  short : wireLength place.labels ≤ 255

/-! ## Main theorem -/

/-- The name that is read from labels. -/
def nameOf (rt : Runtime) (labels : List Label) : Str :=
  rt.casefold (join (str ".") (labels.map Label.text))

theorem readName_eq_ok {rt : Runtime} {message : List Byte} {i : Nat} {name : Str} {next : Nat} :
    readName rt message i = .ok (name, next) ↔ ∃ labels jumps, Spells message i labels jumps next ∧
      jumps ≤ maxPointerJumps ∧ wireLength labels ≤ 255 ∧ name = nameOf rt labels := by
  unfold readName
  constructor
  · intro h
    cases hread : readLabels message i with
    | error e =>
      rw [hread] at h
      cases h
    | ok result =>
      obtain ⟨texts, next'⟩ := result
      rw [hread] at h
      cases h
      obtain ⟨labels, jumps, hspells, hjumps, hwire, rfl⟩ := readLabels_eq_ok.mp hread
      exact ⟨labels, jumps, hspells, hjumps, hwire, rfl⟩
  · rintro ⟨labels, jumps, hspells, hjumps, hwire, rfl⟩
    rw [readLabels_eq_ok.mpr ⟨labels, jumps, hspells, hjumps, hwire, rfl⟩]
    rfl

/-- No run of the loop goes on for ever. -/
theorem pass_terminates (message : List Byte) (run : Nat → Reading) :
    ∃ n, pass message (run n) ≠ .ok (.next (run (n + 1))) := by
  by_contra hrun
  have hnext : ∀ n, pass message (run n) = .ok (.next (run (n + 1))) := fun n =>
    not_not.mp (not_exists.mp hrun n)
  have hwf : WellFounded (Prod.Lex (α := Nat) (β := Nat) (· < ·) (· < ·)) :=
    WellFounded.prod_lex wellFounded_lt wellFounded_lt
  obtain ⟨_, ⟨n, rfl⟩, hmin⟩ := hwf.has_min
    (Set.range fun n => (maxPointerJumps - (run n).jumps, message.length - (run n).cursor))
    ⟨_, 0, rfl⟩
  exact hmin _ ⟨n + 1, rfl⟩ (pass_decreases (hnext n))

/-- `_read_name` ends on every message. It reads exactly the names that the message spells within its
bounds, and returns the labels joined, and the offset behind the name; this offset covers the labels
up to the terminator or the first pointer. And from a message that was written with any compression
it reads back the labels. -/
theorem readName_exact (rt : Runtime) :
    (∀ message (run : Nat → Reading), ∃ n, pass message (run n) ≠ .ok (.next (run (n + 1)))) ∧
    (∀ message i name next, readName rt message i = .ok (name, next) ↔ ∃ labels jumps,
      Spells message i labels jumps next ∧ jumps ≤ maxPointerJumps ∧ wireLength labels ≤ 255 ∧
      name = nameOf rt labels) ∧
    (∀ message i labels jumps next, Spells message i labels jumps next → i < next ∧
      next ≤ message.length ∧ Covers message labels jumps (slice message i next)) ∧
    ∀ s : Stored, ∃ next,
      readLabels s.message s.place.position = .ok (s.place.labels.map Label.text, next) ∧
      readName rt s.message s.place.position = .ok (nameOf rt s.place.labels, next) := by
  refine ⟨pass_terminates, fun _ _ _ _ => readName_eq_ok, fun _ _ _ _ _ h => h.covers, fun s => ?_⟩
  obtain ⟨next, hspells⟩ := s.written.spells s.place s.mem_table
  exact ⟨next, readLabels_eq_ok.mpr ⟨_, _, hspells, s.few, s.short, rfl⟩,
    readName_eq_ok.mpr ⟨_, _, hspells, s.few, s.short, rfl⟩⟩

/-! ## A compressed name -/

namespace Sample

theorem printable {s : Str} (h : s.all (fun c => 0x20 ≤ c.val) = true) : ∀ c ∈ s, 0x20 ≤ c.val :=
  fun c hc => of_decide_eq_true (List.all_eq_true.mp h c hc)

def printer : Label := ⟨str "printer", by decide, printable (by decide), by decide⟩

def web : Label := ⟨str "web", by decide, printable (by decide), by decide⟩

def domain : Label := ⟨str "local", by decide, printable (by decide), by decide⟩

/-- Behind a header, `printer.local` is written out, and `web.local` ends in a pointer into it. -/
def compressed : Stored where
  message := List.replicate 12 0 ++ (spell [printer, domain] ++ [0]) ++ (spell [web] ++ pointer 20)
  table := places 12 [printer, domain] [] 0 ++ places 27 [web] [domain] 1
  written := .compressed [web] (p := ⟨20, [domain], 0⟩)
    (.name [printer, domain] (.bytes (List.replicate 12 0) .nil)) (.tail _ (.head _)) (by decide)
  place := ⟨27, [web, domain], 1⟩
  mem_table := List.mem_append_right _ (.head _)
  few := by decide
  short := by decide

end Sample

example : ∃ next, readLabels Sample.compressed.message 27 = .ok ([str "web", str "local"], next) := by
  obtain ⟨next, hspells⟩ := Sample.compressed.written.spells _ Sample.compressed.mem_table
  exact ⟨next, readLabels_eq_ok.mpr
    ⟨_, _, hspells, Sample.compressed.few, Sample.compressed.short, rfl⟩⟩

/-! ## Names that coincide -/

/-- A name that `_read_name` accepts, with its labels. -/
structure Accepted where
  message : List Byte
  offset : Nat
  labels : List Str
  next : Nat
  read : readLabels message offset = .ok (labels, next)

/-- The labels after casefolding. -/
def Accepted.folded (rt : Runtime) (a : Accepted) : List Str := a.labels.map rt.casefold

/-- The name that `_read_name` returns. -/
def Accepted.name (rt : Runtime) (a : Accepted) : Except Exc Str :=
  (readName rt a.message a.offset).map Prod.fst

theorem casefold_join (rt : Runtime) (labels : List Str) :
    rt.casefold (join (str ".") labels) = [cp '.'].intercalate (labels.map rt.casefold) := by
  unfold join
  induction labels with
  | nil => rfl
  | cons a labels ih =>
    cases labels with
    | nil => simp
    | cons b labels =>
      rw [List.intercalate_cons_cons, Runtime.casefold_append, Runtime.casefold_append, ih,
        List.map_cons, List.map_cons, List.map_cons, List.intercalate_cons_cons]
      rfl

theorem Accepted.name_eq (rt : Runtime) (a : Accepted) :
    a.name rt = .ok ([cp '.'].intercalate (a.folded rt)) := by
  unfold Accepted.name readName Accepted.folded
  rw [a.read, ← casefold_join]
  rfl

/-- Labels that differ after casefolding give different names exactly when they still differ once
each label is split at its dots. -/
theorem names_differ_iff (rt : Runtime) (a b : Accepted) :
    (a.folded rt ≠ b.folded rt → a.name rt ≠ b.name rt) ↔
      (a.folded rt = b.folded rt ∨
        Separated.pieces (cp '.') (a.folded rt) ≠ Separated.pieces (cp '.') (b.folded rt)) := by
  have hname : a.name rt = b.name rt ↔
      Separated.pieces (cp '.') (a.folded rt) = Separated.pieces (cp '.') (b.folded rt) := by
    rw [a.name_eq, b.name_eq, Except.ok.injEq]
    exact Separated.intercalate_eq_iff
  rw [ne_eq, ne_eq, ne_eq, hname]
  exact Decidable.imp_iff_not_or.trans (or_congr_left not_not)

theorem readLabels_spell {labels : List Label} (h : wireLength labels ≤ 255) :
    ∃ next, readLabels (spell labels ++ [0]) 0 = .ok (labels.map Label.text, next) := by
  have hmem : ∀ position, ⟨position, labels, 0⟩ ∈ places position labels [] 0 := by
    intro position
    cases labels with
    | nil => exact List.mem_cons_self
    | cons l labels =>
      rw [places, List.append_nil]
      exact List.mem_cons_self
  have hwritten : Written (spell labels ++ [0]) (places 0 labels [] 0) := .name labels .nil
  obtain ⟨next, hspells⟩ := hwritten.spells _ (hmem 0)
  exact ⟨next, readLabels_eq_ok.mpr ⟨labels, 0, hspells, Nat.zero_le _, h, rfl⟩⟩

/-- An instance label with a dot, and the same text as two labels. -/
theorem names_coincide : ¬ ∀ (rt : Runtime) (a b : Accepted),
    a.folded rt ≠ b.folded rt → a.name rt ≠ b.name rt := by
  intro h
  let dotted : Label := ⟨str "a.b", by decide, Sample.printable (by decide), by decide⟩
  let first : Label := ⟨str "a", by decide, Sample.printable (by decide), by decide⟩
  let second : Label := ⟨str "b", by decide, Sample.printable (by decide), by decide⟩
  obtain ⟨next, hread⟩ := @readLabels_spell [dotted] (Nat.le_of_ble_eq_true rfl)
  obtain ⟨next', hread'⟩ := @readLabels_spell [first, second] (Nat.le_of_ble_eq_true rfl)
  refine h (Runtime.ofDigests []) ⟨_, _, _, _, hread⟩ ⟨_, _, _, _, hread'⟩ ?_ ?_
  · intro heq
    cases congrArg List.length heq
  · rw [Accepted.name_eq, Accepted.name_eq]
    rfl

end FieldDiscovery.Passive.Dns
