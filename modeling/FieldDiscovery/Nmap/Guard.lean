import FieldDiscovery.Lib.Openings
import FieldDiscovery.Nmap.Xml

/-!
# The guard over the bytes of nmap XML

`_parse_stream` looks for declarations in every chunk before it is fed, and keeps the end of what it
has read, or the declaration that is still open. Whatever the chunks are, it accepts the documents
without an entity declaration and with no other document type than nmap's
(`guardAccepts_iff`): what it keeps is what `Openings.Carries` asks for.

The check of the encoding looks at the first chunk only, and a first chunk of one byte holds no
byte-order mark (`rejectedUnfed_iff`).
-/

namespace FieldDiscovery.Nmap

open Py Openings

/-! ## Words -/

/-- `>` -/
def closeByte : Byte := Fin.ofNat _ 62

/-- `canonical_doctype` without its `>` -/
def doctypeBody : List Byte := bytes "<!DOCTYPE NMAPRUN"

theorem canonicalDoctype_eq : canonicalDoctype = doctypeBody ++ [closeByte] := by decide

theorem closeByte_notMem : closeByte ∉ doctypeBody := by decide

theorem marker_cons : doctypeMarker = Fin.ofNat _ 60 :: bytes "!DOCTYPE" := by decide

theorem canonical_cons : canonicalDoctype = Fin.ofNat _ 60 :: bytes "!DOCTYPE NMAPRUN>" := by decide

/-- `<` opens the marker and does not come again. -/
theorem open_fresh : (Fin.ofNat _ 60 : Byte) ∉ bytes "!DOCTYPE NMAPRUN>" := by decide

theorem marker_ne_nil : doctypeMarker ≠ [] := by decide

/-- The rest of a list from a word on is a suffix, and no suffix before it starts with the word. -/
theorem fromFirst_spec (word s : List Byte) :
    match fromFirst word s with
    | none => ∀ t, t <:+ s → word <+: t → t = []
    | some rest => rest <:+ s ∧ word <+: rest ∧ ∀ t, t <:+ s → word <+: t → t <:+ rest := by
  induction s with
  | nil =>
    unfold fromFirst
    split
    · next hrest =>
      exact fun t ht _ => List.suffix_nil.mp ht
    · next rest hrest =>
      split at hrest
      · next hword =>
        cases hrest
        exact ⟨List.suffix_refl _, hword ▸ List.nil_prefix, fun t ht _ => ht⟩
      · cases hrest
  | cons b s ih =>
    unfold fromFirst
    by_cases hword : word <+: b :: s
    · rw [if_pos hword]
      exact ⟨List.suffix_refl _, hword, fun t ht _ => ht⟩
    · rw [if_neg hword]
      have hlater : ∀ t, t <:+ b :: s → word <+: t → t <:+ s := by
        intro t ht ht'
        rcases List.suffix_cons_iff.mp ht with rfl | ht
        · exact absurd ht' hword
        · exact ht
      cases hrest : fromFirst word s with
      | none =>
        rw [hrest] at ih
        exact fun t ht ht' => ih t (hlater t ht ht') ht'
      | some rest =>
        rw [hrest] at ih
        obtain ⟨hsuffix, hstart, hfirst⟩ := ih
        exact ⟨hsuffix.trans (List.suffix_cons b s), hstart,
          fun t ht ht' => hfirst t (hlater t ht ht') ht'⟩

/-! ## Declarations of a window -/

/-- The text up to the first `>` is the body when the body with its `>` comes first. -/
theorem takeWhile_close_eq_iff {rest : List Byte} (hclose : closeByte ∈ rest) :
    rest.takeWhile (· != closeByte) ++ [closeByte] = canonicalDoctype ↔
      canonicalDoctype <+: rest := by
  have hsplit : rest.takeWhile (· != closeByte) ++ rest.dropWhile (· != closeByte) = rest :=
    List.takeWhile_append_dropWhile
  have hdrop : ∃ tail, rest.dropWhile (· != closeByte) = closeByte :: tail := by
    have hne : rest.dropWhile (· != closeByte) ≠ [] := by
      intro hnil
      have hall := List.dropWhile_eq_nil_iff.mp hnil closeByte hclose
      simp at hall
    obtain ⟨b, tail, htail⟩ := List.exists_cons_of_ne_nil hne
    have hhead := List.head?_dropWhile_not (· != closeByte) rest
    rw [htail] at hhead
    simp only [List.head?_cons, bne_eq_false_iff_eq] at hhead
    exact ⟨tail, hhead ▸ htail⟩
  obtain ⟨tail, htail⟩ := hdrop
  constructor
  · intro h
    refine ⟨tail, ?_⟩
    rw [← h, List.append_assoc, List.singleton_append, ← htail, hsplit]
  · rintro ⟨tail', rfl⟩
    rw [canonicalDoctype_eq, List.append_assoc, List.singleton_append,
      List.takeWhile_append_of_pos]
    · rw [List.takeWhile_cons_of_neg (by simp), List.append_nil]
    · intro b hb
      rw [bne_iff_ne]
      exact fun heq => closeByte_notMem (heq ▸ hb)

/-- The loop over the declarations of a window finds out what the window leaves open. -/
theorem scanDoctypes_eq_ok {fuel : Nat} {window p : List Byte} (hfuel : window.length < fuel) :
    scanDoctypes fuel window = .ok p ↔
      Pending doctypeMarker canonicalDoctype window p := by
  induction fuel generalizing window with
  | zero => exact absurd hfuel (Nat.not_lt_zero _)
  | succ fuel ih =>
    have hfirst := fromFirst_spec doctypeMarker window
    rw [scanDoctypes]
    cases hrest : fromFirst doctypeMarker window with
    | none =>
      rw [hrest] at hfirst
      have hnone : ∀ t, t <:+ window → ¬ doctypeMarker <+: t := by
        intro t ht hmarker
        rw [hfirst t ht hmarker] at hmarker
        exact marker_ne_nil (List.prefix_nil.mp hmarker)
      constructor
      · intro h
        cases h
        exact ⟨fun hp => absurd rfl hp, fun t ht hmarker => absurd hmarker (hnone t ht)⟩
      · intro h
        by_cases hp : p = []
        · rw [hp]
        · obtain ⟨hsuffix, hmarker, -⟩ := h.cut hp
          exact absurd hmarker (hnone p hsuffix)
    | some rest =>
      rw [hrest] at hfirst
      obtain ⟨hsuffix, hstart, hlater⟩ := hfirst
      -- what the window leaves open is what the rest leaves open
      have hpending : Pending doctypeMarker canonicalDoctype window p ↔
          Pending doctypeMarker canonicalDoctype rest p := by
        constructor
        · intro h
          refine ⟨fun hp => ?_, fun t ht => h.allowed t (ht.trans hsuffix)⟩
          obtain ⟨hps, hmarker, hcut⟩ := h.cut hp
          exact ⟨hlater p hps hmarker, hmarker, hcut⟩
        · intro h
          refine ⟨fun hp => ?_, fun t ht hmarker => h.allowed t (hlater t ht hmarker) hmarker⟩
          obtain ⟨hps, hcut⟩ := h.cut hp
          exact ⟨hps.trans hsuffix, hcut⟩
      rw [hpending]
      simp only
      have hbyte : (Fin.ofNat _ 62 : Byte) = closeByte := rfl
      rw [hbyte]
      -- no `>` is in an open declaration
      have hopen : Pending doctypeMarker canonicalDoctype rest p → closeByte ∉ p := by
        intro h hclose
        by_cases hp : p = []
        · rw [hp] at hclose
          exact List.not_mem_nil hclose
        · obtain ⟨-, -, hcut, hne⟩ := h.cut hp
          rw [canonicalDoctype_eq] at hcut hne
          rcases List.prefix_concat_iff.mp hcut with heq | hbody
          · exact hne heq
          · exact closeByte_notMem (hbody.subset hclose)
      by_cases hclose : closeByte ∈ rest
      · rw [if_pos hclose]
        by_cases hwhole : canonicalDoctype <+: rest
        · rw [if_neg (fun hne => hne ((takeWhile_close_eq_iff hclose).mpr hwhole)),
            (takeWhile_close_eq_iff hclose).mpr hwhole]
          obtain ⟨tail, rfl⟩ := hwhole
          rw [List.drop_left]
          have hlength : tail.length < fuel := by
            have := hsuffix.length_le
            have hcanonical : canonicalDoctype.length = 18 := by decide
            rw [List.length_append] at this
            omega
          rw [ih hlength, canonical_cons, marker_cons]
          by_cases hp : p = Fin.ofNat _ 60 :: bytes "!DOCTYPE NMAPRUN>" ++ tail
          · -- neither side leaves a closed declaration open
            have hmem : closeByte ∈ p := by
              rw [hp, ← canonical_cons]
              exact hclose
            refine iff_of_false (fun h => ?_) fun h => ?_
            · obtain ⟨hps, -⟩ := h.cut (List.ne_nil_of_mem hmem)
              have hle := hps.length_le
              rw [hp, List.length_append, List.length_cons] at hle
              omega
            · rw [← canonical_cons, ← marker_cons] at h
              exact hopen h hmem
          · exact (pending_whole_append_iff open_fresh hp).symm
        · rw [if_pos (mt (takeWhile_close_eq_iff hclose).mp hwhole)]
          refine iff_of_false (fun h => by cases h) fun h => ?_
          rcases h.allowed rest (List.suffix_refl _) hstart with hcomplete | rfl
          · exact hwhole hcomplete
          · exact hopen h hclose
      · rw [if_neg hclose]
        have hincomplete : ¬ canonicalDoctype <+: rest := by
          intro hwhole
          rw [canonicalDoctype_eq] at hwhole
          exact hclose (hwhole.subset (List.mem_append_right _ List.mem_cons_self))
        by_cases hcut : rest <+: canonicalDoctype
        · rw [if_pos hcut]
          constructor
          · intro h
            cases h
            refine ⟨fun _ => ⟨List.suffix_refl _, hstart, hcut, ?_⟩, fun t ht hmarker => .inr ?_⟩
            · exact fun heq => hincomplete (heq ▸ List.prefix_refl _)
            · rw [canonical_cons] at hcut
              rw [marker_cons] at hmarker
              exact eq_of_prefix_whole open_fresh hcut ht hmarker
          · intro h
            rw [(h.allowed rest (List.suffix_refl _) hstart).resolve_left hincomplete]
        · rw [if_neg hcut]
          refine iff_of_false (fun h => by cases h) fun h => ?_
          obtain rfl := (h.allowed rest (List.suffix_refl _) hstart).resolve_left hincomplete
          by_cases hnil : rest = []
          · rw [hnil] at hcut
            exact hcut List.nil_prefix
          · exact hcut (h.cut hnil).2.2.1

/-! ## Runs of the guard -/

/-- The documents that the guard is for, ASCII case aside: no entity is declared, and every document
type is nmap's. -/
def AllowedDocument (document : List Byte) : Prop :=
  ¬ bytes "<!ENTITY" <:+: upperBytes document ∧
    Allowed doctypeMarker canonicalDoctype (upperBytes document)

/-- The document is in an encoding that the guard reads: no byte-order mark, no NUL. -/
structure AsciiCompatible (document : List Byte) : Prop where
  little : ¬ [Fin.ofNat _ 0xFF, Fin.ofNat _ 0xFE] <+: document
  big : ¬ [Fin.ofNat _ 0xFE, Fin.ofNat _ 0xFF] <+: document
  nul : Fin.ofNat _ 0 ∉ document

section

variable {limits : ParserLimits}

/-- The guard alone: the checks on the bytes of every chunk, and the one on what is left open. -/
def GuardAccepts (limits : ParserLimits) (chunks : List (List Byte)) : Prop :=
  ∃ g, chunks.foldlM (guardChunk limits) {} = .ok g ∧ g.pendingDoctype = []

/-- What the next window starts with. -/
def GuardState.kept (g : GuardState) : List Byte :=
  if g.pendingDoctype = [] then g.declarationTail else g.pendingDoctype

/-- What the guard knows of the document that it has read. -/
structure Guarding (document : List Byte) (g : GuardState) : Prop where
  total : g.total = document.length
  entity : ¬ bytes "<!ENTITY" <:+: upperBytes document
  pending : Pending doctypeMarker canonicalDoctype (upperBytes document) g.pendingDoctype
  tail : g.pendingDoctype = [] → g.declarationTail =
    (upperBytes document).drop ((upperBytes document).length - (doctypeMarker.length - 1))

theorem upperBytes_append (a b : List Byte) :
    upperBytes (a ++ b) = upperBytes a ++ upperBytes b := List.map_append

theorem Guarding.init : Guarding [] {} where
  total := rfl
  entity := by decide
  pending := by
    refine ⟨fun hp => absurd rfl hp, fun t ht hmarker => ?_⟩
    rw [List.suffix_nil.mp ht] at hmarker
    exact absurd (List.prefix_nil.mp hmarker) marker_ne_nil
  tail _ := rfl

variable {document chunk : List Byte} {g g' : GuardState}

theorem Guarding.carries (h : Guarding document g) :
    Carries doctypeMarker canonicalDoctype (upperBytes document) g.kept := by
  unfold GuardState.kept
  by_cases hp : g.pendingDoctype = []
  · rw [if_pos hp, h.tail hp]
    exact (hp ▸ h.pending).carries_drop marker_ne_nil
  · rw [if_neg hp]
    exact h.pending.carries hp

/-- What the guard keeps is shorter than the marker only when it is all that was read. -/
theorem Guarding.kept_short (h : Guarding document g)
    (hshort : g.kept.length < doctypeMarker.length - 1) : g.kept = upperBytes document := by
  unfold GuardState.kept at hshort ⊢
  by_cases hp : g.pendingDoctype = []
  · rw [if_pos hp, h.tail hp] at hshort ⊢
    rw [List.length_drop] at hshort
    have hzero : (upperBytes document).length - (doctypeMarker.length - 1) = 0 := by omega
    rw [hzero, List.drop_zero]
  · rw [if_neg hp] at hshort
    have hmarker := (h.pending.cut hp).2.1.length_le
    omega

/-- A chunk that is accepted is one more piece of the document. -/
theorem Guarding.step (h : Guarding document g) (hstep : guardChunk limits g chunk = .ok g') :
    Guarding (document ++ chunk) g' := by
  unfold guardChunk at hstep
  simp only at hstep
  change (if _ then _ else if _ then _ else if bytes "<!ENTITY" <:+: g.kept ++ upperBytes chunk then
    _ else _) = _ at hstep
  split at hstep
  · cases hstep
  split at hstep
  · cases hstep
  split at hstep
  · cases hstep
  next hentity =>
  obtain ⟨p, hpending, hstep⟩ := Except.bind_eq_ok.mp hstep
  obtain rfl := Except.ok.inj hstep
  have hcarries := h.carries
  have hlength : (bytes "<!ENTITY").length ≤ doctypeMarker.length := by decide
  refine ⟨?_, ?_, ?_, fun hp => ?_⟩
  · change g.total + chunk.length = (document ++ chunk).length
    rw [List.length_append, h.total]
  · rw [upperBytes_append, hcarries.infix_append_iff hlength h.entity]
    exact hentity
  · rw [upperBytes_append, hcarries.pending_append_iff]
    exact (scanDoctypes_eq_ok (Nat.lt_succ_self _)).mp hpending
  · change p = [] at hp
    change (if p = [] then (g.kept ++ upperBytes chunk).drop ((g.kept ++ upperBytes chunk).length -
      (doctypeMarker.length - 1)) else []) = _
    rw [if_pos hp, upperBytes_append]
    by_cases hshort : (g.kept ++ upperBytes chunk).length < doctypeMarker.length - 1
    · rw [h.kept_short]
      rw [List.length_append] at hshort
      omega
    · exact hcarries.drop_append (Nat.not_lt.mp hshort)

/-- A chunk is accepted when the document may go on after it. -/
theorem Guarding.exists_step (h : Guarding document g)
    (hsize : (document ++ chunk).length ≤ limits.maxBytes)
    (hencoding : document = [] → AsciiCompatible chunk)
    (hentity : ¬ bytes "<!ENTITY" <:+: upperBytes (document ++ chunk))
    (hpending : ∃ p, Pending doctypeMarker canonicalDoctype (upperBytes (document ++ chunk)) p) :
    ∃ g', guardChunk limits g chunk = .ok g' := by
  obtain ⟨p, hp⟩ := hpending
  have hcarries := h.carries
  have hlength : (bytes "<!ENTITY").length ≤ doctypeMarker.length := by decide
  rw [upperBytes_append, hcarries.infix_append_iff hlength h.entity] at hentity
  rw [upperBytes_append, hcarries.pending_append_iff] at hp
  rw [List.length_append, ← h.total] at hsize
  let window := g.kept ++ upperBytes chunk
  refine ⟨⟨g.total + chunk.length,
    if p = [] then window.drop (window.length - (doctypeMarker.length - 1)) else [], p⟩, ?_⟩
  unfold guardChunk
  simp only
  rw [if_neg (Nat.not_lt.mpr hsize), if_neg]
  · change (if bytes "<!ENTITY" <:+: g.kept ++ upperBytes chunk then _ else
      (scanDoctypes ((g.kept ++ upperBytes chunk).length + 1) (g.kept ++ upperBytes chunk) >>= _))
        = _
    rw [if_neg hentity, (scanDoctypes_eq_ok (Nat.lt_succ_self _)).mpr hp]
    rfl
  · rintro ⟨hfirst, hmark⟩
    have hdocument : document = [] := by
      apply List.eq_nil_of_length_eq_zero
      rw [← h.total]
      omega
    obtain ⟨hlittle, hbig, hnul⟩ := hencoding hdocument
    rcases hmark with hmark | hmark | hmark
    · exact hlittle hmark
    · exact hbig hmark
    · exact hnul hmark

/-- The guard on the chunks that are left. -/
theorem Guarding.run {chunks : List (List Byte)} (h : Guarding document g)
    (hsize : (document ++ chunks.flatten).length ≤ limits.maxBytes)
    (hencoding : AsciiCompatible (document ++ chunks.flatten)) :
    (∃ g', chunks.foldlM (guardChunk limits) g = .ok g' ∧ g'.pendingDoctype = []) ↔
      AllowedDocument (document ++ chunks.flatten) := by
  induction chunks generalizing document g with
  | nil =>
    rw [List.flatten_nil, List.append_nil]
    constructor
    · rintro ⟨g', hrun, hnil⟩
      obtain rfl := Except.ok.inj hrun
      exact ⟨h.entity, (pending_nil_iff marker_ne_nil).mp (hnil ▸ h.pending)⟩
    · rintro ⟨-, hallowed⟩
      refine ⟨g, rfl, ?_⟩
      by_contra hp
      exact h.pending.not_allowed hp hallowed
  | cons chunk chunks ih =>
    rw [List.flatten_cons, ← List.append_assoc] at hsize hencoding ⊢
    have hrest : ∀ {g'}, guardChunk limits g chunk = .ok g' →
        ((∃ g'', chunks.foldlM (guardChunk limits) g' = .ok g'' ∧ g''.pendingDoctype = []) ↔
          AllowedDocument (document ++ chunk ++ chunks.flatten)) :=
      fun hstep => ih (h.step hstep) hsize hencoding
    constructor
    · rintro ⟨g', hrun, hnil⟩
      rw [List.foldlM_cons] at hrun
      obtain ⟨g₁, hstep, hrun⟩ := Except.bind_eq_ok.mp hrun
      exact (hrest hstep).mp ⟨g', hrun, hnil⟩
    · intro hallowed
      obtain ⟨hentity, hdoctypes⟩ := hallowed
      have hfront : upperBytes (document ++ chunk ++ chunks.flatten) =
          upperBytes (document ++ chunk) ++ upperBytes chunks.flatten := upperBytes_append _ _
      have hpending : ∃ p, Pending doctypeMarker canonicalDoctype
          (upperBytes (document ++ chunk)) p := by
        have hcut := hdoctypes
        rw [hfront, marker_cons, canonical_cons] at hcut
        rw [marker_cons, canonical_cons]
        exact hcut.exists_pending open_fresh
      have hentity' : ¬ bytes "<!ENTITY" <:+: upperBytes (document ++ chunk) := by
        intro hmem
        rw [hfront] at hentity
        exact hentity (List.infix_append_of_infix_left hmem)
      have hascii : document = [] → AsciiCompatible chunk := by
        rintro rfl
        rw [List.nil_append] at hencoding
        refine ⟨fun hmark => hencoding.little ?_, fun hmark => hencoding.big ?_, fun hnul => ?_⟩
        · exact hmark.trans (List.prefix_append _ _)
        · exact hmark.trans (List.prefix_append _ _)
        · exact hencoding.nul (List.mem_append_left _ hnul)
      have hfits : (document ++ chunk).length ≤ limits.maxBytes := by
        rw [List.length_append] at hsize
        omega
      obtain ⟨g', hstep⟩ := h.exists_step hfits hascii hentity' hpending
      obtain ⟨g'', hrun, hnil⟩ := (hrest hstep).mpr ⟨hentity, hdoctypes⟩
      refine ⟨g'', ?_, hnil⟩
      rw [List.foldlM_cons, hstep]
      exact hrun

/-- A document that the parser reads to its end is one that the guard accepts. -/
theorem readChunks_accepts {rt : Runtime} {p : PullParser} {chunks : List (List Byte)}
    {state : p.State} {s s' : ScanState} (hne : [] ∉ chunks)
    (h : readChunks rt limits p g state s (chunks.map .ok) = .ok s') :
    ∃ g', chunks.foldlM (guardChunk limits) g = .ok g' ∧ g'.pendingDoctype = [] := by
  induction chunks generalizing g state s with
  | nil =>
    rw [List.map_nil, readChunks] at h
    · split at h
      · cases h
      · split at h
        · cases h
        · next hpending => exact ⟨g, rfl, not_not.mp hpending⟩
    · intro e tail htail
      cases htail
    · intro b chunk tail htail
      cases htail
  | cons chunk chunks ih =>
    obtain ⟨hchunk, htail⟩ := not_or.mp (mt List.mem_cons.mpr hne)
    obtain ⟨b, chunk, rfl⟩ := List.exists_cons_of_ne_nil (Ne.symm hchunk)
    rw [List.map_cons, readChunks] at h
    obtain ⟨g', hguard, h⟩ := Except.bind_eq_ok.mp h
    obtain ⟨⟨state', events⟩, -, h⟩ := Except.bind_eq_ok.mp h
    obtain ⟨s₁, -, h⟩ := Except.bind_eq_ok.mp h
    obtain ⟨g'', hrun, hnil⟩ := ih htail h
    refine ⟨g'', ?_, hnil⟩
    rw [List.foldlM_cons, hguard]
    exact hrun

/-- The guard accepts a document or not, whatever its chunks are, and `_parse_stream` reads no
document that it does not accept. -/
theorem guardAccepts_iff {chunks : List (List Byte)}
    (hsize : chunks.flatten.length ≤ limits.maxBytes)
    (hencoding : AsciiCompatible chunks.flatten) :
    (GuardAccepts limits chunks ↔ AllowedDocument chunks.flatten) ∧
      ([] ∉ chunks → ∀ rt p scan, parseStream rt limits p (chunks.map .ok) = .ok scan →
        AllowedDocument chunks.flatten) := by
  have hrun : GuardAccepts limits chunks ↔ AllowedDocument chunks.flatten :=
    Guarding.init.run hsize hencoding
  refine ⟨hrun, fun hne rt p scan hscan => hrun.mp ?_⟩
  obtain ⟨s, hs, -⟩ := Except.bind_eq_ok.mp hscan
  have hread : readChunks rt limits p {} p.initial {} (chunks.map .ok) = .ok s := by
    unfold wrapParseError at hs
    split at hs
    · cases hs
    · exact hs
  exact readChunks_accepts hne hread

/-- A document type that comes in two pieces. -/
theorem guardAccepts_sample : GuardAccepts {} [bytes "<!docTYPE nm", bytes "aprun><nmaprun/>"] ∧
    ¬ GuardAccepts {} [bytes "<!DOCTYPE nmaprun><!EN", bytes "TITY x 'y'><nmaprun/>"] := by
  refine ⟨(guardAccepts_iff (by decide) ⟨by decide, by decide, by decide⟩).1.mpr ⟨?_, ?_⟩, fun h =>
    ((guardAccepts_iff (by decide) ⟨by decide, by decide, by decide⟩).1.mp h).1 (by decide)⟩
  · decide
  · have hall : ∀ t ∈ (upperBytes (bytes "<!docTYPE nmaprun><nmaprun/>")).tails,
        doctypeMarker <+: t → canonicalDoctype <+: t := by decide
    exact fun t ht => hall t ((List.mem_tails _ _).mpr ht)

/-! ## The check of the encoding -/

/-- The document is rejected before any of it is fed: whatever the parser would make of it, the error
is the same. -/
def RejectedUnfed (rt : Runtime) (limits : ParserLimits) (chunks : List (List Byte)) : Prop :=
  ∃ message, ∀ p, parseStream rt limits p (chunks.map .ok) = .error (.nmapXml message)

/-- A byte-order mark of UTF-16. -/
def StartsUtf16 (document : List Byte) : Prop :=
  [Fin.ofNat _ 0xFF, Fin.ofNat _ 0xFE] <+: document ∨
    [Fin.ofNat _ 0xFE, Fin.ofNat _ 0xFF] <+: document

/-- A parser that raises at whatever it is fed. -/
def refusingParser : PullParser where
  State := Unit
  initial := ()
  feed _ _ := .error .sqlite
  close _ := .ok ()

theorem parseStream_refusing {rt : Runtime} {b : Byte} {tail : List Byte}
    {chunks : List (List Byte)} (hguard : guardChunk limits {} (b :: tail) = .ok g) :
    parseStream rt limits refusingParser (((b :: tail) :: chunks).map .ok) = .error .sqlite := by
  unfold parseStream
  rw [List.map_cons, readChunks, hguard]
  rfl

/-- A first chunk of one byte, one half of a byte-order mark, is let through. -/
theorem guardChunk_half {b : Byte} (hb : b ≠ Fin.ofNat _ 0) :
    ∃ g, guardChunk limits {} [b] = .ok g := by
  have hshort : ∀ {word : List Byte}, 2 ≤ word.length → ¬ word <+: [b] := by
    intro word hword hprefix
    have hle := hprefix.length_le
    rw [List.length_singleton] at hle
    omega
  have hupper : (upperBytes [b]).length = 1 := rfl
  refine Guarding.init.exists_step ?_ (fun _ => ⟨hshort (by decide), hshort (by decide), ?_⟩) ?_ ?_
  · have hpositive := limits.positive
    rw [List.nil_append, List.length_singleton]
    omega
  · exact fun hmem => hb (List.mem_singleton.mp hmem).symm
  · intro hentity
    have hle := hentity.length_le
    rw [List.nil_append, hupper] at hle
    exact absurd hle (by decide)
  · refine ⟨[], fun hp => absurd rfl hp, fun t ht hmarker => ?_⟩
    have hle := hmarker.length_le.trans ht.length_le
    rw [List.nil_append, hupper] at hle
    exact absurd hle (by decide)

/-- A document with a byte-order mark of UTF-16 is rejected before any of it is fed exactly when the
first chunk has the whole mark. -/
theorem rejectedUnfed_iff (rt : Runtime) (limits : ParserLimits) {chunks : List (List Byte)}
    (hne : [] ∉ chunks) (hmark : StartsUtf16 chunks.flatten) :
    RejectedUnfed rt limits chunks ↔ ∀ chunk ∈ chunks.head?, 2 ≤ chunk.length := by
  cases chunks with
  | nil => rcases hmark with ⟨t, ht⟩ | ⟨t, ht⟩ <;> cases ht
  | cons chunk chunks =>
    obtain ⟨b, tail, rfl⟩ := List.exists_cons_of_ne_nil (Ne.symm (List.ne_of_not_mem_cons hne))
    simp only [List.head?_cons, Option.mem_some_iff, forall_eq']
    cases tail with
    | nil =>
      -- the first byte of the mark is no NUL
      have hb : b ≠ Fin.ofNat _ 0 := by
        rcases hmark with ⟨t, ht⟩ | ⟨t, ht⟩
        all_goals
          obtain ⟨rfl, -⟩ := List.cons.inj ht
          decide
      obtain ⟨g, hguard⟩ := @guardChunk_half limits b hb
      refine iff_of_false ?_ (by simp)
      rintro ⟨message, hmessage⟩
      have hrefused := hmessage refusingParser
      rw [parseStream_refusing hguard] at hrefused
      cases hrefused
    | cons b' tail =>
      refine iff_of_true ?_ (by simp)
      have hstart : [Fin.ofNat _ 0xFF, Fin.ofNat _ 0xFE] <+: b :: b' :: tail ∨
          [Fin.ofNat _ 0xFE, Fin.ofNat _ 0xFF] <+: b :: b' :: tail := by
        have hle : 2 ≤ (b :: b' :: tail).length := by simp
        rw [StartsUtf16, List.flatten_cons] at hmark
        rcases hmark with hmark | hmark
        · exact .inl (prefix_of_prefix_append hmark hle)
        · exact .inr (prefix_of_prefix_append hmark hle)
      have hguard : ∃ message, guardChunk limits {} (b :: b' :: tail) =
          .error (.nmapXml message) := by
        unfold guardChunk
        simp only
        split
        · exact ⟨_, rfl⟩
        · rw [if_pos ⟨Nat.zero_add _, by tauto⟩]
          exact ⟨_, rfl⟩
      obtain ⟨message, hguard⟩ := hguard
      refine ⟨message, fun p => ?_⟩
      unfold parseStream
      rw [List.map_cons, readChunks, hguard]
      rfl

/-- The document in UTF-16, little-endian, behind its byte-order mark. -/
def utf16Document (text : String) : List Byte :=
  [Fin.ofNat _ 0xFF, Fin.ofNat _ 0xFE] ++ (bytes text).flatMap fun b => [b, Fin.ofNat _ 0]

def entityText : String := "<!DOCTYPE nmaprun [<!ENTITY x 'y'>]><nmaprun/>"

theorem rejectedUnfed_sample : RejectedUnfed (.ofDigests []) {}
    [(utf16Document entityText).take 3, (utf16Document entityText).drop 3] :=
  (rejectedUnfed_iff _ _ (by decide) (.inl (by decide))).mpr (by decide)

/-- Read byte by byte, the document is fed, and the guard lets all of it through. -/
theorem utf16_not_rejected : ∃ limits : ParserLimits, limits.chunkSize = 1 ∧ ∃ chunks,
    (∀ chunk ∈ chunks, chunk.length = 1) ∧ chunks.flatten = utf16Document entityText ∧
      ¬ RejectedUnfed (.ofDigests []) limits chunks ∧ GuardAccepts limits chunks := by
  let chunks := (utf16Document entityText).map fun b => [b]
  refine ⟨{ chunkSize := 1, positive := by decide }, rfl, chunks, by decide, by decide, ?_, ?_⟩
  · rintro ⟨message, hmessage⟩
    obtain ⟨g, hguard⟩ := @guardChunk_half { chunkSize := 1, positive := by decide }
      (Fin.ofNat _ 0xFF) (by decide)
    have hrefused := hmessage refusingParser
    have hfirst : chunks = [Fin.ofNat _ 0xFF] :: chunks.tail := by decide
    rw [hfirst, parseStream_refusing hguard] at hrefused
    cases hrefused
  · have hpending : (chunks.foldlM (guardChunk { chunkSize := 1, positive := by decide })
        {}).toOption.map GuardState.pendingDoctype = some [] := by
      decide +kernel
    obtain ⟨g, hrun, hnil⟩ := Option.map_eq_some_iff.mp hpending
    exact ⟨g, Except.toOption_eq_some.mp hrun, hnil⟩

end

end FieldDiscovery.Nmap
