import TrustedRelay.Rust.Outcome

/-!
# The SNP certificate table

The certificate blob behind a report starts with a table of 24-byte entries: a GUID, an offset
and a length, both little-endian. An all-zero entry ends the table. `findCert` is the lookup as
the source does it, one loop over the entries and one over the matches; `lookup` says what it
computes: the first entry with the GUID whose bytes lie behind the table and inside the blob.
-/

namespace TrustedRelay

namespace CertTable

def entrySize : ℕ := 24

/-! ### GUIDs -/

def hexNibble (c : UInt8) : UInt8 :=
  if 48 ≤ c ∧ c ≤ 57 then c - 48
  else if 97 ≤ c ∧ c ≤ 102 then c - 97 + 10
  else if 65 ≤ c ∧ c ≤ 70 then c - 65 + 10
  else 0

def hexPair (hi lo : UInt8) : UInt8 := (hexNibble hi <<< 4) ||| hexNibble lo

/-- The bytes of a GUID: the first three groups are little-endian. -/
def guidBytes (text : Text) : Bytes :=
  let bytes := Text.asBytes text
  [6, 4, 2, 0, 11, 9, 16, 14, 19, 21, 24, 26, 28, 30, 32, 34].map fun i =>
    hexPair (bytes.getD i 0) (bytes.getD (i + 1) 0)

def guidVcek : Bytes := guidBytes "63da758d-e664-4564-adc5-f4b93be8accd".toList

def guidVlek : Bytes := guidBytes "a8074bc2-a25a-483e-aae6-39c045a0b8a1".toList

example : guidVcek.take 4 = [0x8d, 0x75, 0xda, 0x63] := by decide

/-! ### The lookup of the source -/

/-- `usize::checked_add`. -/
def checkedAdd (a b : ℕ) : Option ℕ := if a + b < 2 ^ 64 then some (a + b) else none

/-- The table loop: the end of the table and the ranges that the GUID names, or `none` when the
function returns early. The four-byte slices convert to arrays. -/
def scan {ε : Type} (guid : Bytes) :
    List Bytes → ℕ → List (ℕ × ℕ) → Outcome ε (Option (ℕ × List (ℕ × ℕ)))
  | [], headerEnd, ranges => .ok (some (headerEnd, ranges))
  | entry :: rest, headerEnd, ranges =>
    if entry.all (· == 0) then .ok (some (headerEnd + entrySize, ranges))
    else do
      let name ← Bytes.index entry 0 16
      if name ≠ guid then scan guid rest (headerEnd + entrySize) ranges
      else
        let offset ← Bytes.index entry 16 20
        let length ← Bytes.index entry 20 24
        match checkedAdd (Bytes.le offset) (Bytes.le length) with
        | none => .ok none
        | some stop => scan guid rest (headerEnd + entrySize) (ranges ++ [(Bytes.le offset, stop)])

/-- The match loop: the first range that lies behind the table and inside the blob. -/
def firstInRange (certs : Bytes) (headerEnd : ℕ) : List (ℕ × ℕ) → Option Bytes
  | [] => none
  | (offset, stop) :: rest =>
    if offset < headerEnd ∨ certs.length < stop then firstInRange certs headerEnd rest
    else
      match Bytes.get certs offset stop with
      | some cert => some cert
      | none => firstInRange certs headerEnd rest

/-- The certificate that a GUID names. -/
def findCert {ε : Type} (certs guid : Bytes) : Outcome ε (Option Bytes) := do
  let found ← scan guid (Bytes.chunksExact entrySize certs) 0 []
  .ok (found.bind fun (headerEnd, ranges) => firstInRange certs headerEnd ranges)

/-! ### What it computes -/

/-- The entries before the terminator. -/
def entries (certs : Bytes) : List Bytes :=
  (Bytes.chunksExact entrySize certs).takeWhile fun entry => !entry.all (· == 0)

/-- The end of the table, terminator included if there is one. -/
def tableEnd (certs : Bytes) : ℕ :=
  entrySize * min ((entries certs).length + 1) (Bytes.chunksExact entrySize certs).length

/-- The range that an entry names. -/
def entryRange (entry : Bytes) : ℕ × ℕ :=
  let offset := Bytes.le (Bytes.range entry 16 20)
  (offset, offset + Bytes.le (Bytes.range entry 20 24))

/-- The certificate that an entry names, if its bytes are behind the table and in the blob. -/
def entryCert (certs : Bytes) (entry : Bytes) : Option Bytes :=
  if tableEnd certs ≤ (entryRange entry).1 ∧ (entryRange entry).2 ≤ certs.length then
    some (Bytes.range certs (entryRange entry).1 (entryRange entry).2)
  else none

/-- The certificate of the first usable entry with the GUID. -/
def lookup (certs guid : Bytes) : Option Bytes :=
  ((entries certs).filter fun entry => Bytes.range entry 0 16 = guid).findSome? (entryCert certs)

/-- An entry's range ends below `2^33`, far from where `usize` overflows. -/
theorem checkedAdd_entry {entry : Bytes} (h : entry.length = 24) :
    checkedAdd (Bytes.le (Bytes.range entry 16 20)) (Bytes.le (Bytes.range entry 20 24)) =
      some (entryRange entry).2 := by
  have h16 := Bytes.le_lt (Bytes.range entry 16 20)
  have h20 := Bytes.le_lt (Bytes.range entry 20 24)
  rw [Bytes.length_range (by omega) (by omega)] at h16 h20
  exact if_pos (by omega)

/-- One run of the table loop: it passes the entries before the terminator and collects the
ranges of those with the GUID. -/
theorem scan_eq {ε : Type} (guid : Bytes) {table : List Bytes} (h : ∀ e ∈ table, e.length = 24)
    (headerEnd : ℕ) (ranges : List (ℕ × ℕ)) :
    let live := table.takeWhile fun entry => !entry.all (· == 0)
    (scan guid table headerEnd ranges : Outcome ε _) = .ok (some
      (headerEnd + entrySize * min (live.length + 1) table.length,
        ranges ++ (live.filter fun entry => Bytes.range entry 0 16 = guid).map entryRange)) := by
  induction table generalizing headerEnd ranges with
  | nil => simp [scan]
  | cons entry rest ih =>
    have hlen : entry.length = 24 := h entry (List.mem_cons_self ..)
    have ih := ih fun e he => h e (List.mem_cons_of_mem _ he)
    by_cases hzero : entry.all (· == 0) = true
    · -- the table ends here, and its last entry is still counted
      simp [scan, hzero]
    · have hlive : ((entry :: rest).takeWhile fun entry => !entry.all (· == 0)) =
          entry :: rest.takeWhile fun entry => !entry.all (· == 0) :=
        List.takeWhile_cons_of_pos (by simpa using hzero)
      have hend : ∀ n, headerEnd + entrySize + entrySize * min (n + 1) rest.length =
          headerEnd + entrySize * min (n + 1 + 1) (rest.length + 1) := by
        intro n
        have hmin : min (n + 1 + 1) (rest.length + 1) = min (n + 1) rest.length + 1 := by omega
        rw [hmin, Nat.mul_succ, Nat.add_right_comm, Nat.add_assoc]
      rw [scan, if_neg hzero, Bytes.index_eq_ok (by omega) (by omega),
        Bytes.index_eq_ok (by omega) (by omega), Bytes.index_eq_ok (by omega) (by omega)]
      simp only [hlive, List.length_cons]
      by_cases hname : Bytes.range entry 0 16 = guid
      · simp only [bind, Except.bind, hname, ne_eq, not_true_eq_false, if_false,
          checkedAdd_entry hlen, ih, hend, List.filter_cons, decide_true, if_true, List.map_cons,
          List.append_assoc, List.singleton_append]
        rfl
      · simp only [bind, Except.bind, hname, ne_eq, not_false_eq_true, if_true, ih, hend,
          List.filter_cons, decide_false, Bool.false_eq_true, if_false]

/-- The match loop takes the first usable range. -/
theorem firstInRange_eq (certs : Bytes) (es : List Bytes) :
    firstInRange certs (tableEnd certs) (es.map entryRange) = es.findSome? (entryCert certs) := by
  induction es with
  | nil => rfl
  | cons entry rest ih =>
    rw [List.map_cons, List.findSome?_cons, ← ih, firstInRange, entryCert]
    by_cases hr : tableEnd certs ≤ (entryRange entry).1 ∧ (entryRange entry).2 ≤ certs.length
    · have hle : (entryRange entry).1 ≤ (entryRange entry).2 := Nat.le_add_right _ _
      rw [if_neg (by omega), if_pos hr, Bytes.get_eq_some hle hr.2]
    · rw [if_pos (by omega), if_neg hr]

/-- The lookup never panics, and finds the certificate of the first usable entry. -/
theorem findCert_eq {ε : Type} (certs guid : Bytes) :
    (findCert certs guid : Outcome ε _) = .ok (lookup certs guid) := by
  have hsize : ∀ e ∈ Bytes.chunksExact entrySize certs, e.length = 24 :=
    fun _ => Bytes.length_of_mem_chunksExact
  rw [findCert, scan_eq guid hsize]
  simp only [bind, Except.bind, Option.bind_some, Nat.zero_add, List.nil_append]
  exact congrArg Except.ok (firstInRange_eq certs _)

/-- What is found lies behind the table and inside the blob. -/
theorem lookup_range {certs guid cert : Bytes} (h : lookup certs guid = some cert) :
    ∃ i j, tableEnd certs ≤ i ∧ i ≤ j ∧ j ≤ certs.length ∧ cert = Bytes.range certs i j := by
  obtain ⟨entry, -, hentry⟩ := List.exists_of_findSome?_eq_some h
  rw [entryCert, Option.ite_none_right_eq_some] at hentry
  obtain ⟨⟨hstart, hend⟩, heq⟩ := hentry
  exact ⟨_, _, hstart, Nat.le_add_right _ _, hend, (Option.some.inj heq).symm⟩

/-! ### Encoded tables -/

/-- `write_cert_entry`: one entry of a table. -/
def certEntry (guid : ByteArr 16) (offset len : ℕ) : Bytes :=
  guid.1 ++ Bytes.toLe 4 offset ++ Bytes.toLe 4 len

/-- A certificate with its GUID and its place in the blob. -/
structure Placed where
  guid : ByteArr 16
  cert : Bytes
  offset : ℕ

def Placed.entry (p : Placed) : Bytes := certEntry p.guid p.offset p.cert.length

/-- The entries, with the terminator. -/
def encodeTable (ps : List Placed) : Bytes :=
  ps.flatMap Placed.entry ++ List.replicate entrySize 0

/-- The blob starts with the table of `ps`, and each certificate stands at its place, which is
behind the table; places and lengths are 32-bit numbers. -/
structure Encodes (ps : List Placed) (certs : Bytes) : Prop where
  table : encodeTable ps <+: certs
  behind : ∀ p ∈ ps, (encodeTable ps).length ≤ p.offset
  inside : ∀ p ∈ ps, p.offset + p.cert.length ≤ certs.length
  fits : ∀ p ∈ ps, p.offset < 2 ^ 32 ∧ p.cert.length < 2 ^ 32
  placed : ∀ p ∈ ps, Bytes.range certs p.offset (p.offset + p.cert.length) = p.cert

theorem Placed.length_entry (p : Placed) : p.entry.length = entrySize := by
  simp only [Placed.entry, certEntry, List.length_append, p.guid.2, Bytes.length_toLe]
  rfl

theorem length_encodeTable (ps : List Placed) :
    (encodeTable ps).length = entrySize * (ps.length + 1) := by
  have hentries : (ps.flatMap Placed.entry).length = entrySize * ps.length := by
    induction ps with
    | nil => rfl
    | cons p ps ih =>
      rw [List.flatMap_cons, List.length_append, ih, p.length_entry, List.length_cons,
        Nat.mul_succ, Nat.add_comm]
  rw [encodeTable, List.length_append, hentries, List.length_replicate, Nat.mul_succ]

/-- The three fields of an entry. -/
theorem Placed.entry_fields (p : Placed) :
    Bytes.range p.entry 0 16 = p.guid.1 ∧ Bytes.range p.entry 16 20 = Bytes.toLe 4 p.offset ∧
      Bytes.range p.entry 20 24 = Bytes.toLe 4 p.cert.length := by
  have hguid := p.guid.2
  have hoff := Bytes.length_toLe 4 p.offset
  have hlen := Bytes.length_toLe 4 p.cert.length
  refine ⟨?_, ?_, ?_⟩
  · have h := Bytes.range_append [] p.guid.1 (Bytes.toLe 4 p.offset ++ Bytes.toLe 4 p.cert.length)
    rw [hguid] at h
    simpa [Placed.entry, certEntry] using h
  · have h := Bytes.range_append p.guid.1 (Bytes.toLe 4 p.offset) (Bytes.toLe 4 p.cert.length)
    rwa [hguid, hoff] at h
  · have h := Bytes.range_append (p.guid.1 ++ Bytes.toLe 4 p.offset) (Bytes.toLe 4 p.cert.length) []
    rw [List.append_nil, List.length_append, hguid, hoff, hlen] at h
    exact h

theorem entryRange_entry {p : Placed} (h : p.offset < 2 ^ 32 ∧ p.cert.length < 2 ^ 32) :
    entryRange p.entry = (p.offset, p.offset + p.cert.length) := by
  obtain ⟨-, hoff, hlen⟩ := p.entry_fields
  rw [entryRange, hoff, hlen, Bytes.le_toLe (by omega), Bytes.le_toLe (by omega)]

/-- A place behind the table is not zero, so an entry does not look like the terminator. -/
theorem entry_not_zero {p : Placed} (h : p.offset < 2 ^ 32) (hpos : 0 < p.offset) :
    p.entry.all (· == 0) = false := by
  by_contra hzero
  rw [Bool.not_eq_false, List.all_eq_true] at hzero
  have hoff : ∀ x ∈ Bytes.toLe 4 p.offset, x = 0 := by
    intro x hx
    have hmem : x ∈ p.entry := List.mem_append_left _ (List.mem_append_right _ hx)
    simpa using hzero x hmem
  have hrep : Bytes.toLe 4 p.offset = List.replicate 4 0 :=
    List.eq_replicate_iff.mpr ⟨Bytes.length_toLe 4 _, hoff⟩
  have hle := Bytes.le_toLe (n := 4) (k := p.offset) (by omega)
  rw [hrep] at hle
  exact absurd hle hpos.ne

/-- The chunks of an encoded blob: the entries, the terminator, and whatever follows. -/
theorem chunksExact_encodeTable (ps : List Placed) (rest : Bytes) :
    Bytes.chunksExact entrySize (encodeTable ps ++ rest) =
      ps.map Placed.entry ++ List.replicate entrySize 0 :: Bytes.chunksExact entrySize rest := by
  induction ps with
  | nil => exact Bytes.chunksExact_append (by decide) List.length_replicate rest
  | cons p ps ih =>
    have hsplit : encodeTable (p :: ps) ++ rest = p.entry ++ (encodeTable ps ++ rest) := by
      simp [encodeTable]
    rw [hsplit, Bytes.chunksExact_append (by decide) p.length_entry, ih]
    rfl

/-- The scan of an encoded blob sees the entries of its table. -/
theorem entries_of_encodes {ps : List Placed} {certs : Bytes} (h : Encodes ps certs) :
    entries certs = ps.map Placed.entry ∧ tableEnd certs = (encodeTable ps).length := by
  obtain ⟨rest, rfl⟩ := h.table
  have hlive : ∀ e ∈ ps.map Placed.entry, (!e.all (· == 0)) = true := by
    intro e he
    obtain ⟨p, hp, rfl⟩ := List.mem_map.mp he
    have hpos : 0 < p.offset := by
      have hbehind := h.behind p hp
      rw [length_encodeTable] at hbehind
      exact lt_of_lt_of_le (Nat.mul_pos (by decide) (Nat.succ_pos _)) hbehind
    rw [entry_not_zero (h.fits p hp).1 hpos]
    rfl
  have hentries : entries (encodeTable ps ++ rest) = ps.map Placed.entry := by
    rw [entries, chunksExact_encodeTable, List.takeWhile_append_of_pos hlive,
      List.takeWhile_cons_of_neg (by decide), List.append_nil]
  refine ⟨hentries, ?_⟩
  have hmin : min (ps.length + 1) (ps.length + ((Bytes.chunksExact entrySize rest).length + 1)) =
      ps.length + 1 := by omega
  rw [tableEnd, hentries, chunksExact_encodeTable, List.length_append, List.length_map,
    List.length_cons, hmin, length_encodeTable]

/-- What follows an encoded blob does not matter. -/
theorem Encodes.append {ps : List Placed} {certs : Bytes} (h : Encodes ps certs) (more : Bytes) :
    Encodes ps (certs ++ more) where
  table := h.table.trans (List.prefix_append _ _)
  behind := h.behind
  inside p hp := by
    rw [List.length_append]
    exact Nat.le_add_right_of_le (h.inside p hp)
  fits := h.fits
  placed p hp := (Bytes.range_append_left rfl (h.inside p hp)).trans (h.placed p hp)

/-- Looking up a GUID in an encoded blob finds the first certificate with it. -/
theorem lookup_of_encodes {ps : List Placed} {certs : Bytes} (h : Encodes ps certs)
    (guid : ByteArr 16) :
    lookup certs guid.1 = (ps.find? fun p => p.guid = guid).map Placed.cert := by
  obtain ⟨hentries, hend⟩ := entries_of_encodes h
  -- every entry is usable, so the first one with the GUID decides
  have hcert : ∀ p ∈ ps, entryCert certs p.entry = some p.cert := by
    intro p hp
    rw [entryCert, entryRange_entry (h.fits p hp), hend, if_pos ⟨h.behind p hp, h.inside p hp⟩,
      h.placed p hp]
  have hguid : ∀ p : Placed, Bytes.range p.entry 0 16 = guid.1 ↔ p.guid = guid := by
    intro p
    rw [p.entry_fields.1, Subtype.ext_iff]
  rw [lookup, hentries]
  clear hentries hend h
  induction ps with
  | nil => rfl
  | cons p ps ih =>
    have ih := ih fun q hq => hcert q (List.mem_cons_of_mem _ hq)
    rw [List.map_cons]
    by_cases hp : p.guid = guid
    · rw [List.filter_cons_of_pos (by simpa using (hguid p).mpr hp), List.findSome?_cons,
        hcert p (List.mem_cons_self ..), List.find?_cons_of_pos (by simpa using hp)]
      rfl
    · rw [List.filter_cons_of_neg (by simpa using mt (hguid p).mp hp), ih,
        List.find?_cons_of_neg (by simpa using hp)]

/-- Decoding a table inverts encoding it, and on no blob is a part of the table returned. -/
theorem findCert_spec (ε : Type) :
    (∀ (ps : List Placed) (certs : Bytes) (guid : ByteArr 16), Encodes ps certs →
      (findCert certs guid.1 : Outcome ε _) =
        .ok ((ps.find? fun p => p.guid = guid).map Placed.cert)) ∧
    ∀ (certs guid cert : Bytes), (findCert certs guid : Outcome ε _) = .ok (some cert) →
      ∃ i j, tableEnd certs ≤ i ∧ i ≤ j ∧ j ≤ certs.length ∧ cert = Bytes.range certs i j := by
  refine ⟨fun ps certs guid h => ?_, fun certs guid cert h => ?_⟩
  · rw [findCert_eq, lookup_of_encodes h]
  · rw [findCert_eq] at h
    exact lookup_range (Except.ok.inj h)

def vcekGuid : ByteArr 16 := ⟨guidVcek, by decide⟩

def vlekGuid : ByteArr 16 := ⟨guidVlek, by decide⟩

/-- Two certificates, one behind the other. -/
def sampleTable : List Placed :=
  [⟨vcekGuid, Text.asBytes "vcek-cert".toList, 72⟩,
    ⟨vlekGuid, Text.asBytes "vlek-cert-longer".toList, 81⟩]

def sampleBlob : Bytes :=
  encodeTable sampleTable ++ Text.asBytes "vcek-certvlek-cert-longer".toList ++ List.replicate 8 0

theorem sampleBlob_findCert :
    (findCert sampleBlob vlekGuid.1 : Outcome Text _) =
        .ok (some (Text.asBytes "vlek-cert-longer".toList)) ∧
      ∃ i j, tableEnd sampleBlob ≤ i ∧ i ≤ j ∧ j ≤ sampleBlob.length ∧
        Text.asBytes "vlek-cert-longer".toList = Bytes.range sampleBlob i j := by
  have hencodes : Encodes sampleTable sampleBlob :=
    ⟨⟨_, (List.append_assoc ..).symm⟩, by decide, by decide, by decide, by decide⟩
  have hfind := (findCert_spec Text).1 sampleTable sampleBlob vlekGuid hencodes
  have hfirst : (sampleTable.find? fun p => p.guid = vlekGuid).map Placed.cert =
      some (Text.asBytes "vlek-cert-longer".toList) := by decide
  rw [hfirst] at hfind
  exact ⟨hfind, (findCert_spec Text).2 _ _ _ hfind⟩

end CertTable

end TrustedRelay
