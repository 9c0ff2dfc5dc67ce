import TrustedRelay.Attest.SevSnp

/-!
# Evidence for SEV-SNP

The attester's side: the guest device fills a response buffer with the report and a buffer of
16 KiB with the certificate table, and the evidence is the report with as much of the certificate
buffer as `certBlobUsedLen` keeps. The device is a parameter.

Writer and reader walk the table separately. `truncation_spec` says that they agree, whatever
the table looks like: no lookup in the kept part differs from the lookup in the whole buffer, and
the verifier takes the evidence apart into just these two pieces.
-/

namespace TrustedRelay

namespace SevSnp

open CertTable
open Outcome (lift)

/-! ### The attester -/

/-- The table loop of the writer: the end of the table, and the largest end of an entry, cut to
the size of the blob. -/
def usedLoop {ε : Type} (total : ℕ) : List Bytes → ℕ → ℕ → Outcome ε (ℕ × ℕ)
  | [], headerEnd, used => .ok (headerEnd, used)
  | entry :: rest, headerEnd, used =>
    if entry.all (· == 0) then .ok (headerEnd + entrySize, used)
    else do
      let offset ← Bytes.index entry 16 20
      let length ← Bytes.index entry 20 24
      match checkedAdd (Bytes.le offset) (Bytes.le length) with
      | some stop => usedLoop total rest (headerEnd + entrySize) (max used (min stop total))
      | none => usedLoop total rest (headerEnd + entrySize) used

/-- How much of the certificate buffer is in use. -/
def certBlobUsedLen {ε : Type} (certs : Bytes) : Outcome ε ℕ := do
  let (headerEnd, used) ← usedLoop certs.length (Bytes.chunksExact entrySize certs) 0 0
  .ok (if used = 0 then 0 else max used headerEnd)

/-- The report and the part of the certificate buffer that is in use. -/
def evidenceData {ε : Type} (report certs : Bytes) : Outcome ε Bytes := do
  let certsLen ← certBlobUsedLen certs
  let kept ← Bytes.index certs 0 certsLen
  .ok (report ++ kept)

def snpCertBlobSize : ℕ := 16 * 1024

/-- The guest device: the response buffer and the certificate buffer, once it could be opened and
asked. -/
abbrev SevGuest := ByteArr 64 → Except AttestError (ByteArr 4000 × ByteArr snpCertBlobSize)

/-- The report in the response buffer: a header of 32 bytes, with status and size, is before it. -/
def reportOfResponse (resp : ByteArr 4000) : Outcome AttestError Bytes := do
  let status ← Bytes.array 4 resp.1 0
  let reportSize ← Bytes.array 4 resp.1 4
  lift (ensure (Bytes.le status.1 = 0) (.generationFailed
    ("SNP_GET_EXT_REPORT firmware status: 0x".toList ++ Nat.toDigits 16 (Bytes.le status.1))))
  lift (ensure (¬ (Bytes.le reportSize.1 < snpReportSize ∨ resp.1.length < 32 + snpReportSize))
    (.generationFailed ("SNP_GET_EXT_REPORT returned invalid report size: ".toList ++
      Text.decimal (Bytes.le reportSize.1))))
  Bytes.index resp.1 32 (32 + snpReportSize)

def attestLinuxExt (guest : SevGuest) (userData : ByteArr 64) : Outcome AttestError Evidence := do
  let answer ← lift (guest userData)
  let report ← reportOfResponse answer.1
  let data ← evidenceData report answer.2.1
  .ok ⟨.sevSnp, data⟩

/-! ### What is kept -/

/-- The largest end of an entry before the terminator, cut to the size of the blob. -/
def usedEnd (certs : Bytes) : ℕ :=
  ((entries certs).map fun entry => min (entryRange entry).2 certs.length).foldl max 0

/-- One run of the writer's loop: like the reader's, it passes the entries before the
terminator. -/
theorem usedLoop_eq {ε : Type} (total : ℕ) {table : List Bytes} (h : ∀ e ∈ table, e.length = 24)
    (headerEnd used : ℕ) :
    let live := table.takeWhile fun entry => !entry.all (· == 0)
    (usedLoop total table headerEnd used : Outcome ε _) = .ok
      (headerEnd + entrySize * min (live.length + 1) table.length,
        (live.map fun entry => min (entryRange entry).2 total).foldl max used) := by
  induction table generalizing headerEnd used with
  | nil => simp [usedLoop]
  | cons entry rest ih =>
    have hlen : entry.length = 24 := h entry (List.mem_cons_self ..)
    have ih := ih fun e he => h e (List.mem_cons_of_mem _ he)
    by_cases hzero : entry.all (· == 0) = true
    · simp [usedLoop, hzero]
    · have hlive : ((entry :: rest).takeWhile fun entry => !entry.all (· == 0)) =
          entry :: rest.takeWhile fun entry => !entry.all (· == 0) :=
        List.takeWhile_cons_of_pos (by simpa using hzero)
      rw [usedLoop, if_neg hzero, Bytes.index_eq_ok (by omega) (by omega),
        Bytes.index_eq_ok (by omega) (by omega)]
      simp only [bind, Except.bind, checkedAdd_entry hlen, ih, hlive, List.length_cons,
        List.map_cons, List.foldl_cons]
      congr 2
      have hmin : ∀ n, min (n + 1 + 1) (rest.length + 1) = min (n + 1) rest.length + 1 := by omega
      rw [hmin, Nat.mul_succ]
      omega

theorem certBlobUsedLen_eq {ε : Type} (certs : Bytes) :
    (certBlobUsedLen certs : Outcome ε _) =
      .ok (if usedEnd certs = 0 then 0 else max (usedEnd certs) (tableEnd certs)) := by
  have hsize : ∀ e ∈ Bytes.chunksExact entrySize certs, e.length = 24 :=
    fun _ => Bytes.length_of_mem_chunksExact
  rw [certBlobUsedLen, usedLoop_eq certs.length hsize]
  simp only [bind, Except.bind, Nat.zero_add]
  rfl

/-- The length that is kept. -/
def usedLen (certs : Bytes) : ℕ :=
  if usedEnd certs = 0 then 0 else max (usedEnd certs) (tableEnd certs)

theorem le_foldl_max {l : List ℕ} {m n : ℕ} : l.foldl max m ≤ n ↔ m ≤ n ∧ ∀ x ∈ l, x ≤ n := by
  induction l generalizing m with
  | nil => simp
  | cons a l ih =>
    rw [List.foldl_cons, ih, max_le_iff, List.forall_mem_cons, and_assoc]

/-- The largest end is an upper bound, and the least one. -/
theorem usedEnd_le_iff {certs : Bytes} {n : ℕ} :
    usedEnd certs ≤ n ↔ ∀ entry ∈ entries certs, min (entryRange entry).2 certs.length ≤ n := by
  rw [usedEnd, le_foldl_max, List.forall_mem_map, and_iff_right (Nat.zero_le n)]

theorem tableEnd_le (certs : Bytes) : tableEnd certs ≤ certs.length := by
  calc tableEnd certs
      ≤ entrySize * (Bytes.chunksExact entrySize certs).length :=
        Nat.mul_le_mul_left _ (Nat.min_le_right ..)
    _ = entrySize * (certs.length / entrySize) := by rw [Bytes.length_chunksExact]
    _ ≤ certs.length := Nat.mul_div_le ..

theorem usedLen_le (certs : Bytes) : usedLen certs ≤ certs.length := by
  unfold usedLen
  split_ifs
  · exact Nat.zero_le _
  · exact max_le (usedEnd_le_iff.mpr fun _ _ => Nat.min_le_right ..) (tableEnd_le certs)

/-- A part that holds the table has the same table. -/
theorem table_take {certs : Bytes} {n : ℕ} (hn : n ≤ certs.length) (h : tableEnd certs ≤ n) :
    entries (certs.take n) = entries certs ∧ tableEnd (certs.take n) = tableEnd certs := by
  have hlive : (entries certs).length ≤ (Bytes.chunksExact entrySize certs).length :=
    (List.takeWhile_prefix _).length_le
  have hmin : min ((entries certs).length + 1) (Bytes.chunksExact entrySize certs).length ≤
      n / entrySize := (Nat.le_div_iff_mul_le (by decide)).mpr (by rwa [Nat.mul_comm])
  have hentries : entries (certs.take n) = entries certs := by
    rw [entries, Bytes.chunksExact_take hn, ← List.take_takeWhile, ← entries,
      List.take_of_length_le (by omega)]
  refine ⟨hentries, ?_⟩
  rw [tableEnd, hentries, Bytes.chunksExact_take hn, List.length_take, tableEnd]
  congr 1
  omega

/-- The entries of a part that holds the table and their bytes name the same certificates. -/
theorem lookup_take {certs : Bytes} {n : ℕ} (hn : n ≤ certs.length) (h : tableEnd certs ≤ n)
    (hused : usedEnd certs ≤ n) (guid : Bytes) :
    lookup (certs.take n) guid = lookup certs guid := by
  obtain ⟨hentries, hend⟩ := table_take hn h
  rw [lookup, lookup, hentries, ← List.head?_filterMap, ← List.head?_filterMap]
  refine congrArg List.head? (List.filterMap_congr fun entry hentry => ?_)
  have hmin := usedEnd_le_iff.mp hused entry (List.mem_of_mem_filter hentry)
  rw [entryCert, entryCert, hend, List.length_take, Nat.min_eq_left hn]
  -- an end inside the blob is inside the part that is kept
  have hiff : (entryRange entry).2 ≤ n ↔ (entryRange entry).2 ≤ certs.length := by omega
  refine if_ctx_congr (and_congr_right fun _ => hiff) (fun hin => ?_) fun _ => rfl
  rw [Bytes.range_take (hiff.mpr hin.2)]

/-- Without an entry of positive end nothing is found. -/
theorem lookup_of_unused {certs : Bytes} (h : usedEnd certs = 0) (guid : Bytes) :
    lookup certs guid = none := by
  cases hlookup : lookup certs guid with
  | none => rfl
  | some cert =>
    obtain ⟨entry, hentry, hcert⟩ := List.exists_of_findSome?_eq_some hlookup
    have hmem : entry ∈ entries certs := List.mem_of_mem_filter hentry
    rw [entryCert, Option.ite_none_right_eq_some] at hcert
    obtain ⟨⟨hstart, hstop⟩, -⟩ := hcert
    have hmin := usedEnd_le_iff.mp h.le entry hmem
    have hle : (entryRange entry).1 ≤ (entryRange entry).2 := Nat.le_add_right _ _
    -- with an entry there is a table, and the entry's range begins behind it
    have hpos : 0 < tableEnd certs := by
      have hlive : (entries certs).length ≤ (Bytes.chunksExact entrySize certs).length :=
        (List.takeWhile_prefix _).length_le
      have hsome := List.length_pos_of_mem hmem
      exact Nat.mul_pos (by decide) (by omega)
    omega

/-- The part that is kept holds every certificate that can be found. -/
theorem lookup_usedLen (certs guid : Bytes) :
    lookup (certs.take (usedLen certs)) guid = lookup certs guid := by
  by_cases h : usedEnd certs = 0
  · rw [lookup_of_unused h, usedLen, if_pos h, List.take_zero]
    rfl
  · have hlen := usedLen_le certs
    rw [usedLen, if_neg h] at hlen ⊢
    exact lookup_take hlen (le_max_right _ _) (le_max_left _ _) guid

theorem evidenceData_eq {ε : Type} (report certs : Bytes) :
    (evidenceData report certs : Outcome ε Bytes) = .ok (report ++ certs.take (usedLen certs)) := by
  rw [evidenceData, certBlobUsedLen_eq, ← usedLen]
  change (Bytes.index certs 0 (usedLen certs) >>= fun kept => .ok (report ++ kept)) = _
  rw [Bytes.index_eq_ok (Nat.zero_le _) (usedLen_le certs)]
  rfl

/-- What the verifier takes apart is what the attester put together. -/
theorem evidence_split {report : Bytes} (h : report.length = 1184) (kept : Bytes) :
    reportBytes (report ++ kept) = .ok report ∧
      certBlobBytes (report ++ kept) = if kept = [] then none else some kept := by
  have hsize : snpReportSize = report.length := h.symm
  refine ⟨okOr_eq_ok_iff.mpr ?_, ?_⟩
  · rw [hsize, Bytes.get_eq_some (Nat.zero_le _) (by simp), Bytes.range, List.drop_zero,
      Nat.sub_zero, List.take_left]
  · rw [certBlobBytes, hsize, Bytes.get_eq_some (by simp) le_rfl, Bytes.range, List.drop_left,
      List.length_append, Nat.add_sub_cancel_left, List.take_length, Option.filter_some]
    split_ifs <;> simp_all

/-- Truncation changes no lookup, on any certificate buffer, and the evidence is split back. -/
theorem truncation_spec (ε : Type) :
    (∀ certs guid : Bytes, ∃ n, (certBlobUsedLen certs : Outcome ε ℕ) = .ok n ∧
      n ≤ certs.length ∧
      (findCert (certs.take n) guid : Outcome ε _) = findCert certs guid) ∧
    ∀ report certs : Bytes, report.length = 1184 → ∃ n data,
      (certBlobUsedLen certs : Outcome ε ℕ) = .ok n ∧
      (evidenceData report certs : Outcome ε Bytes) = .ok data ∧
      data = report ++ certs.take n ∧ reportBytes data = .ok report ∧
      certBlobBytes data = (if certs.take n = [] then none else some (certs.take n)) ∧
      ∀ guid, embeddedCert (certBlobBytes data) guid = findCert certs guid := by
  have hused : ∀ certs, (certBlobUsedLen certs : Outcome ε ℕ) = .ok (usedLen certs) :=
    certBlobUsedLen_eq
  refine ⟨fun certs guid => ⟨usedLen certs, hused certs, usedLen_le certs, ?_⟩,
    fun report certs h => ?_⟩
  · rw [findCert_eq, findCert_eq, lookup_usedLen]
  · obtain ⟨hreport, hblob⟩ := evidence_split h (certs.take (usedLen certs))
    refine ⟨usedLen certs, report ++ certs.take (usedLen certs), hused certs,
      evidenceData_eq report certs, rfl, hreport, hblob, fun guid => ?_⟩
    rw [embeddedCert_eq, findCert_eq, hblob, ← lookup_usedLen]
    split_ifs with hnil
    · rw [hnil]
      rfl
    · rfl

theorem sampleBlob_truncated :
    ∃ data, (evidenceData (List.replicate 1184 1) sampleBlob : Outcome Text Bytes) = .ok data ∧
      reportBytes data = .ok (List.replicate 1184 1) ∧
      embeddedCert (certBlobBytes data) vlekGuid.1 =
        .ok (some (Text.asBytes "vlek-cert-longer".toList)) := by
  obtain ⟨-, hsplit⟩ := truncation_spec Text
  obtain ⟨n, data, -, hdata, -, hreport, -, hlookup⟩ :=
    hsplit (List.replicate 1184 1) sampleBlob List.length_replicate
  refine ⟨data, hdata, hreport, (hlookup vlekGuid.1).trans ?_⟩
  rw [findCert_eq]
  exact congrArg Except.ok (by decide)

theorem reportOfResponse_safe (resp : ByteArr 4000) : Outcome.Safe (reportOfResponse resp) := by
  have hresp := resp.2
  rw [reportOfResponse, Bytes.array_eq_ok (by omega), Bytes.array_eq_ok (by omega)]
  refine Outcome.safe_ok.bind fun _ _ => Outcome.safe_ok.bind fun _ _ =>
    Outcome.safe_lift.bind fun _ _ => Outcome.safe_lift.bind fun _ _ => ?_
  rw [Bytes.index_eq_ok (by decide) (by rw [hresp]; decide)]
  exact Outcome.safe_ok

theorem reportOfResponse_eq_ok {resp : ByteArr 4000} {report : Bytes}
    (h : reportOfResponse resp = .ok report) :
    report = Bytes.range resp.1 32 (32 + snpReportSize) := by
  have hresp := resp.2
  simp only [reportOfResponse, Except.bind_eq_ok_iff] at h
  obtain ⟨-, -, -, -, -, -, -, -, h⟩ := h
  rw [Bytes.index_eq_ok (by decide) (by rw [hresp]; decide)] at h
  exact (Except.ok.inj h).symm

/-- The attester does not panic, and what it returns is a report of the device with the kept part
of the device's certificates. -/
theorem attestLinuxExt_spec (guest : SevGuest) (userData : ByteArr 64) :
    Outcome.Safe (attestLinuxExt guest userData) ∧
      ∀ evidence, attestLinuxExt guest userData = .ok evidence →
        ∃ resp certs, guest userData = .ok (resp, certs) ∧ evidence.teeType = .sevSnp ∧
          evidence.data =
            Bytes.range resp.1 32 (32 + snpReportSize) ++ certs.1.take (usedLen certs.1) := by
  constructor
  · refine Outcome.safe_lift.bind fun answer _ => (reportOfResponse_safe _).bind fun report _ => ?_
    rw [evidenceData_eq]
    exact Outcome.safe_ok.bind fun _ _ => Outcome.safe_ok
  · intro evidence h
    simp only [attestLinuxExt, evidenceData_eq, Except.bind_eq_ok_iff, Outcome.lift_eq_ok_iff,
      Except.ok.injEq] at h
    obtain ⟨⟨resp, certs⟩, hguest, report, hreport, data, rfl, rfl⟩ := h
    exact ⟨resp, certs, hguest, rfl, by rw [reportOfResponse_eq_ok hreport]⟩

end SevSnp

end TrustedRelay
