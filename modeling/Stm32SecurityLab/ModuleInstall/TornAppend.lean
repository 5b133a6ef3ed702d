import Stm32SecurityLab.ModuleInstall.Floors

/-!
# Torn catalog records

When the power is lost while a record is appended, a part of it stays at the end of the catalog.
Recovery ignores it there. But the next record is appended behind it, and recovery reads the catalog
in blocks of 128 bytes from its start: from the torn record on, no block is a record any more.

So the catalog survives the tear only if nothing is torn, or if nothing can be appended afterwards
because the sequence numbers are used up.

## Main definitions

* `SurvivesTear` — later records are recovered as if the torn one was not there
* `Exhausted` — the sequence numbers are used up

## Main results

* `torn_append_iff` — exactly when the catalog survives
* `torn_append_hides` — a revocation that recovery does not see
-/

namespace Stm32SecurityLab.ModuleInstall

open Crash

/-! ### The catalog only grows -/

/-- The highest sequence number has been used. -/
def Exhausted (view : RecoveryView) : Prop := ∃ r ∈ view.records, 0xFFFFFFFF ≤ r.sequence

/-- The catalog has been appended to, and only if there were sequence numbers left. -/
structure Grows (flash flash' : SimulatedFlash) : Prop where
  appended : ∃ tail, flash'.catalog = flash.catalog ++ tail
  exhausted : Exhausted (recoverCatalog flash.catalog) → flash'.catalog = flash.catalog

theorem Grows.of_eq {flash flash' : SimulatedFlash} (h : flash'.catalog = flash.catalog) :
    Grows flash flash' :=
  ⟨⟨[], h.trans (List.append_nil _).symm⟩, fun _ => h⟩

instance : Std.Refl Grows := ⟨fun _ => .of_eq rfl⟩

instance : IsTrans SimulatedFlash Grows where
  trans flash₁ flash₂ flash₃ h h' := by
    obtain ⟨tail, htail⟩ := h.appended
    obtain ⟨tail', htail'⟩ := h'.appended
    refine ⟨⟨tail ++ tail', by rw [htail', htail, List.append_assoc]⟩, fun hexhausted => ?_⟩
    have hsame := h.exhausted hexhausted
    rw [← hsame]
    exact h'.exhausted (by rw [hsame]; exact hexhausted)

section Operations

variable {crypto : ModuleCrypto} {installer : ModuleInstaller} {flash : SimulatedFlash}

theorem grows_afterPersistentWrite : Steps Grows afterPersistentWrite := by
  intro flash
  refine StepsFrom.modify_bind (.of_eq rfl) (StepsFrom.get_bind ?_)
  split
  · exact Std.Refl.refl _
  · exact StepsFrom.pure ()

theorem grows_recover : Steps Grows recover :=
  fun _ => StepsFrom.get_bind (StepsFrom.pure _)

theorem grows_verifyPackage (package : List UInt8) (expected : Option ℕ) :
    Steps Grows (verifyPackage crypto installer package expected) :=
  grows_recover.bind fun _ => .ofExcept _

theorem grows_requireLatest (moduleId : ℕ) : Steps Grows (requireLatest moduleId) :=
  grows_recover.bind fun _ => .ofExcept _

theorem grows_readSlotOrFail (moduleId : ℕ) (slot : ModuleSlot) :
    Steps Grows (readSlotOrFail moduleId slot) :=
  (Steps.check _ _).bind fun _ _ => StepsFrom.get_bind (StepsFrom.ofExcept _)

theorem grows_writeSlot (moduleId : ℕ) (slot : ModuleSlot) (package : List UInt8) :
    Steps Grows (writeSlot moduleId slot package) :=
  (Steps.check _ _).bind fun _ _ =>
    StepsFrom.modify_bind (.of_eq rfl) (grows_afterPersistentWrite _)

theorem grows_eraseSlot (moduleId : ℕ) (slot : ModuleSlot) :
    Steps Grows (eraseSlot moduleId slot) :=
  (Steps.check _ _).bind fun _ _ =>
    StepsFrom.modify_bind (.of_eq rfl) (grows_afterPersistentWrite _)

/-- A record is appended only behind a check of the sequence number. -/
theorem grows_appendRecord (encode : ℕ → Except InstallError (List UInt8)) :
    Steps Grows (nextSequence >>= fun sequence =>
      Prog.ofExcept (encode sequence) >>= appendCatalog) := by
  intro flash
  rw [StepsFrom, nextSequence]
  simp only [recover, wp_bind, wp_get, wp_pure, wp_check]
  refine ⟨fun hleft => wp_ofExcept.mpr ⟨fun raw _ => ?_, fun _ _ => .of_eq rfl⟩,
    fun _ => .of_eq rfl⟩
  have hgrows : Grows flash { flash with catalog := flash.catalog ++ raw } := by
    refine ⟨⟨raw, rfl⟩, fun hexhausted => ?_⟩
    obtain ⟨r, hr, hsequence⟩ := hexhausted
    rcases hleft with hnone | hlt
    · rw [hnone] at hr
      cases hr
    · have hle : r.sequence ≤
          ((recoverCatalog flash.catalog).records.map CatalogRecord.sequence).foldl max 0 :=
        Store.foldl_max_le.2 _ (List.mem_map_of_mem hr)
      exact absurd (le_trans hsequence hle) (Nat.not_le.mpr hlt)
  rw [appendCatalog]
  exact StepsFrom.modify_bind hgrows (grows_afterPersistentWrite _)

theorem grows_appendState {verified : VerifiedPackage} {state : InstallState}
    {activeSlot candidateSlot : ModuleSlot} {minVersion failures : ℕ} :
    Steps Grows (appendState verified state activeSlot candidateSlot minVersion failures) :=
  grows_appendRecord _

/-- Reading a slot and verifying what is in it. -/
theorem grows_useSlot {moduleId : ℕ} {slot : ModuleSlot} {f : VerifiedPackage → Operation Unit}
    (hf : ∀ verified, Steps Grows (f verified)) :
    Steps Grows (readSlotOrFail moduleId slot >>= fun package =>
      verifyPackage crypto installer package (some moduleId) >>= f) :=
  (grows_readSlotOrFail _ _).bind fun _ => (grows_verifyPackage _ _).bind hf

/-- Every operation only appends to the catalog. -/
theorem grows_run (op : Op) : Steps Grows (op.run crypto installer) := by
  cases op with
  | install package =>
    refine Steps.bind ?_ fun _ => .pure _
    refine (grows_verifyPackage _ _).bind fun verified => grows_recover.bind fun view => ?_
    refine (Steps.check _ _).bind fun _ => (Steps.check _ _).bind fun _ => ?_
    refine grows_appendState.bind fun _ => (grows_writeSlot _ _ _).bind fun _ => ?_
    refine Steps.bind ?_ fun _ => grows_appendState.bind fun _ => .pure _
    exact (grows_readSlotOrFail _ _).bind fun _ => grows_verifyPackage _ _
  | activate moduleId =>
    refine (grows_requireLatest _).bind fun record => (Steps.check _ _).bind fun _ => ?_
    exact grows_useSlot fun _ => grows_appendState.bind fun _ => grows_appendState
  | confirm moduleId =>
    refine (grows_requireLatest _).bind fun record => (Steps.check _ _).bind fun _ => ?_
    exact grows_useSlot fun _ => grows_appendState
  | rollback moduleId =>
    refine (grows_requireLatest _).bind fun record => grows_recover.bind fun view => ?_
    exact (Steps.ofExcept _).bind fun confirmed => grows_useSlot fun _ => grows_appendState
  | recordInitializationResult moduleId success =>
    refine (grows_requireLatest _).bind fun record => (Steps.check _ _).bind fun _ => ?_
    cases success with
    | true => exact .pure _
    | false => exact grows_recover.bind fun view => grows_useSlot fun _ => grows_appendState
  | quarantine moduleId =>
    refine (grows_requireLatest _).bind fun record => grows_useSlot fun _ => ?_
    exact grows_recover.bind fun view => grows_appendState
  | removeCandidate moduleId =>
    refine (grows_requireLatest _).bind fun record => ?_
    split
    · exact .pure _
    · refine (grows_eraseSlot _ _).bind fun _ => grows_recover.bind fun view => ?_
      split
      · exact grows_useSlot fun _ => grows_appendState
      · exact grows_appendRecord _
  | revokeSigner signerKeyId => exact (Steps.check _ _).bind fun _ => grows_appendRecord _

theorem runCall_grows (crypto : ModuleCrypto) (flash : SimulatedFlash) (call : Call) :
    Grows flash (runCall crypto flash call) := by
  have h : Grows (setPowerLossAfter flash call.failAfter) (runCall crypto flash call) :=
    (grows_run call.op).state (setPowerLossAfter flash call.failAfter)
  exact ⟨h.appended, h.exhausted⟩

theorem runCalls_grows (crypto : ModuleCrypto) (flash : SimulatedFlash) (calls : List Call) :
    Grows flash (runCalls crypto flash calls) := by
  induction calls using List.reverseRecOn with
  | nil => exact Std.Refl.refl flash
  | append_singleton calls call ih =>
    rw [runCalls_append]
    exact IsTrans.trans _ _ _ ih (runCall_grows crypto _ call)

end Operations

/-! ### Blocks that are not records -/

section Blocks

variable {record : CatalogRecord} {signerKeyId : List UInt8} {sequence n : ℕ}

theorem byteAt_field {raw : List UInt8} {off len i : ℕ} (h : i < len) :
    byteAt (field raw off len) i = byteAt raw (off + i) := by
  rw [byteAt, byteAt, List.getD, List.getD, field, List.getElem?_take_of_lt h,
    List.getElem?_drop]

/-- The bytes of a revocation record that are zero. -/
theorem byteAt_revocation_zero (h : Encodable (revocationRecord sequence signerKeyId)) {i : ℕ}
    (hi : 64 ≤ i ∧ i < 96 ∨ 100 ≤ i ∧ i < 128) :
    byteAt (recordBytes (revocationRecord sequence signerKeyId)) i = 0 := by
  rcases hi with ⟨hle, hlt⟩ | ⟨hle, hlt⟩
  · obtain ⟨k, rfl⟩ := Nat.exists_eq_add_of_le hle
    have hfield := field_fingerprint h
    rw [← byteAt_field (show k < 32 by omega), hfield]
    exact byteAt_replicate_zero 32 k
  · obtain ⟨k, rfl⟩ := Nat.exists_eq_add_of_le hle
    have hfield := field_padding h
    rw [← byteAt_field (show k < 28 by omega)]
    rw [show field _ 100 28 = _ from hfield]
    exact byteAt_replicate_zero 28 k

/-- A string that repeats itself after `n` bytes repeats itself after every multiple. -/
theorem byteAt_period {raw : List UInt8} {size : ℕ}
    (h : ∀ i, i + n < size → byteAt raw (i + n) = byteAt raw i) (k : ℕ) {i : ℕ}
    (hi : i + n * k < size) : byteAt raw (i + n * k) = byteAt raw i := by
  induction k with
  | zero => rfl
  | succ k ih =>
    rw [Nat.mul_succ, ← Nat.add_assoc] at hi ⊢
    rw [h _ hi]
    exact ih (by omega)

/-- No record of a revocation repeats itself. -/
theorem revocation_not_periodic (h : Encodable (revocationRecord sequence signerKeyId))
    (hpos : 0 < n) (hn : n < installRecordSize) :
    ¬ ∀ i, i + n < installRecordSize →
      byteAt (recordBytes (revocationRecord sequence signerKeyId)) (i + n) =
        byteAt (recordBytes (revocationRecord sequence signerKeyId)) i := by
  intro hperiod
  -- the first multiple of `n` from 64 on is below 128
  obtain ⟨k, hlow, hhigh⟩ : ∃ k, 64 ≤ n * k ∧ n * k < 128 := by
    by_cases hlarge : 64 ≤ n
    · exact ⟨1, by omega, by rw [installRecordSize] at hn; omega⟩
    · refine ⟨(63 + n) / n, ?_, ?_⟩
      · have := Nat.lt_mul_div_succ (63 + n) hpos
        rw [Nat.mul_succ] at this
        omega
      · have := Nat.mul_div_le (63 + n) n
        omega
  by_cases hcrc : 96 ≤ n * k ∧ n * k < 100
  · have hfour := byteAt_period hperiod k (i := 4) (by rw [installRecordSize]; omega)
    rw [byteAt_revocation_zero h (by omega)] at hfour
    cases hfour
  · have hfirst := byteAt_period hperiod k (i := 0) (by rw [installRecordSize]; omega)
    rw [byteAt_revocation_zero h (by omega)] at hfirst
    cases hfirst

end Blocks

/-! ### The tear -/

section Tear

variable {crypto : ModuleCrypto} {flash : SimulatedFlash} {store : Store}

/-- Whatever is done after `length` bytes of the record have reached the catalog, recovery finds
what it would find if the torn record was absent, or complete if it was not torn. -/
def SurvivesTear (crypto : ModuleCrypto) (flash : SimulatedFlash) (record : List UInt8)
    (length : ℕ) : Prop :=
  ∀ later : List Call, ∃ tail,
    (runCalls crypto (appendPartialCatalog flash record length) later).catalog =
        flash.catalog ++ record.take length ++ tail ∧
      recoverCatalog (flash.catalog ++ record.take length ++ tail) =
        recoverCatalog
          (flash.catalog ++ (if length = installRecordSize then record else []) ++ tail)

theorem Holds.catalog_length (h : Holds flash store) :
    flash.catalog.length = installRecordSize * store.records.length := by
  rw [h.catalog, catalogBytes_length h.encodable]

/-- What recovery finds behind whole records. -/
theorem Holds.iterValidRecords (h : Holds flash store) (rest : List UInt8) :
    iterValidRecords (flash.catalog ++ rest) =
      store.records ++ ModuleInstall.iterValidRecords rest := by
  rw [iterValidRecords_append h.catalog_length, h.catalog,
    iterValidRecords_catalogBytes h.encodable]

/-- A torn record at the end is not seen. -/
theorem Holds.recover_torn (h : Holds flash store) {part : List UInt8}
    (hpart : part.length < installRecordSize) :
    recoverCatalog (flash.catalog ++ part) = store.view := by
  rw [recoverCatalog, h.iterValidRecords, iterValidRecords_short hpart, List.append_nil]
  rfl

/-- A signer. -/
def thirdPartySigner : List UInt8 := List.replicate 16 1

/-- A revocation is appended behind a torn record. -/
theorem wp_revokeSigner_torn {part : List UInt8} (h : Holds flash store)
    (hpart : part.length < installRecordSize)
    (hroom : Encodable (revocationRecord store.nextSequence thirdPartySigner)) {writeCount : ℕ} :
    wp (revokeSigner thirdPartySigner)
      { flash with catalog := flash.catalog ++ part, failAfter := none, writeCount := writeCount }
      (fun _ flash' => flash'.catalog = flash.catalog ++ part ++
        recordBytes (revocationRecord store.nextSequence thirdPartySigner))
      (fun _ _ => False) (fun _ => False) := by
  have hnext : (store.view.records.map CatalogRecord.sequence).foldl max 0 + 1 =
      store.nextSequence := by
    rw [Store.view, viewOf_records]
    rfl
  have hlimit : store.nextSequence ≤ 0xFFFFFFFF := hroom.sequence_le
  rw [revokeSigner, wp_bind, wp_check]
  refine ⟨fun _ => ?_, fun hno => absurd rfl hno⟩
  simp only [nextSequence, recover, wp_bind, wp_get, wp_pure, wp_check]
  rw [h.recover_torn hpart]
  refine ⟨fun _ => ?_, fun hno => absurd (.inr (by omega)) hno⟩
  rw [hnext]
  refine wp_ofExcept_ok (encodeRecord_eq_ok_iff.mpr ⟨hroom, rfl⟩) ?_
  rw [appendCatalog, wp_bind, wp_modify]
  exact wp_afterPersistentWrite rfl fun hcut => by cases hcut

theorem runCalls_revokeSigner_torn (crypto : ModuleCrypto) {raw : List UInt8} {n : ℕ}
    (h : Holds flash store) (hpart : (raw.take n).length < installRecordSize)
    (hroom : Encodable (revocationRecord store.nextSequence thirdPartySigner)) :
    (runCalls crypto (appendPartialCatalog flash raw n)
      [⟨smallInstaller, .revokeSigner thirdPartySigner, none⟩]).catalog =
        flash.catalog ++ raw.take n ++
          recordBytes (revocationRecord store.nextSequence thirdPartySigner) := by
  obtain ⟨P, hP⟩ : ∃ P : SimulatedFlash → Prop, P = fun flash' => flash'.catalog =
      flash.catalog ++ raw.take n ++
        recordBytes (revocationRecord store.nextSequence thirdPartySigner) := ⟨_, rfl⟩
  have hspec : wp (revokeSigner thirdPartySigner)
      (setPowerLossAfter (appendPartialCatalog flash raw n) none) (fun _ => P) (fun _ => P) P :=
    (wp_revokeSigner_torn h hpart hroom).mono (fun _ _ h' => by rw [hP]; exact h')
      (fun _ _ hno => hno.elim) fun _ hno => hno.elim
  have hstate := wp_state_iff.mp hspec
  rw [hP] at hstate
  exact hstate

/-- What recovery makes of a torn record and the record behind it: one block, and less than
one. -/
theorem iterValidRecords_torn {part : List UInt8} {record : CatalogRecord}
    (hrecord : Encodable record) (hpart : part.length < installRecordSize) :
    iterValidRecords (part ++ recordBytes record) = (decodeRecord
      (part ++ (recordBytes record).take (installRecordSize - part.length))).toOption.toList := by
  have hblock : (part ++ (recordBytes record).take (installRecordSize - part.length)).length =
      installRecordSize := by
    rw [List.length_append, List.length_take, hrecord.length]
    omega
  have hrest : ((recordBytes record).drop (installRecordSize - part.length)).length <
      installRecordSize := by
    rw [List.length_drop, hrecord.length]
    omega
  conv_lhs => rw [← List.take_append_drop (installRecordSize - part.length) (recordBytes record)]
  rw [← List.append_assoc, iterValidRecords_append (n := 1) hblock, iterValidRecords_block hblock,
    iterValidRecords_short hrest, List.append_nil]

/-- A block made of a part of some record and the start of the revocation is not the
revocation. -/
theorem decodeRecord_torn {part : List UInt8} {sequence : ℕ}
    (hrev : Encodable (revocationRecord sequence thirdPartySigner)) (hpos : 0 < part.length)
    (hpart : part.length < installRecordSize) :
    decodeRecord (part ++ (recordBytes (revocationRecord sequence thirdPartySigner)).take
      (installRecordSize - part.length)) ≠ .ok (revocationRecord sequence thirdPartySigner) := by
  intro hdecode
  obtain ⟨-, hsame⟩ := decodeRecord_eq_ok_iff.mp hdecode
  refine revocation_not_periodic hrev hpos hpart fun i hi => ?_
  have hlt : i < ((recordBytes (revocationRecord sequence thirdPartySigner)).take
      (installRecordSize - part.length)).length := by
    rw [List.length_take, hrev.length]
    omega
  conv_lhs => rw [← hsame]
  rw [Nat.add_comm, byteAt_append_right rfl, ← byteAt_append_left hlt, List.take_append_drop]

/-- A revocation appended behind a torn record is lost. -/
theorem Holds.not_survivesTear (crypto : ModuleCrypto) (h : Holds flash store)
    {record : CatalogRecord} (hrecord : Encodable record) {n : ℕ} (hpos : 0 < n)
    (hn : n < installRecordSize) (hleft : store.nextSequence ≤ 0xFFFFFFFF) :
    ¬ SurvivesTear crypto flash (recordBytes record) n := by
  intro hsurvives
  have hrev : Encodable (revocationRecord store.nextSequence thirdPartySigner) :=
    encodable_revocationRecord (Nat.succ_ne_zero _) hleft rfl (by decide)
  have hlen : ((recordBytes record).take n).length = n := by
    rw [List.length_take, hrecord.length]
    omega
  have hpart : ((recordBytes record).take n).length < installRecordSize := hlen.trans_lt hn
  obtain ⟨tail, hcatalog, hrecover⟩ :=
    hsurvives [⟨smallInstaller, .revokeSigner thirdPartySigner, none⟩]
  -- what was appended is the revocation
  obtain rfl : tail = recordBytes (revocationRecord store.nextSequence thirdPartySigner) := by
    have hafter := runCalls_revokeSigner_torn crypto h hpart hrev
    exact List.append_cancel_left (hcatalog.symm.trans hafter)
  rw [if_neg (Nat.ne_of_lt hn), List.append_nil, List.append_assoc] at hrecover
  have hrecords := congrArg RecoveryView.records hrecover
  rw [recoverCatalog, recoverCatalog, viewOf_records, viewOf_records, h.iterValidRecords,
    h.iterValidRecords] at hrecords
  have hiter := List.append_cancel_left hrecords
  rw [iterValidRecords_torn hrev hpart, iterValidRecords_block hrev.length,
    decodeRecord_recordBytes hrev] at hiter
  refine decodeRecord_torn hrev (hlen.trans_gt hpos) hpart ?_
  revert hiter
  cases decodeRecord ((recordBytes record).take n ++
      (recordBytes (revocationRecord store.nextSequence thirdPartySigner)).take
        (installRecordSize - ((recordBytes record).take n).length)) with
  | error e => intro hiter; cases hiter
  | ok r => intro hiter; exact congrArg Except.ok (List.cons.inj hiter).1

theorem foldl_max_mem (l : List ℕ) (n : ℕ) : l.foldl max n = n ∨ l.foldl max n ∈ l := by
  induction l generalizing n with
  | nil => exact .inl rfl
  | cons x l ih =>
    rw [List.foldl_cons]
    rcases ih (max n x) with h | h
    · rw [h]
      rcases max_choice n x with h' | h' <;> rw [h']
      · exact .inl rfl
      · exact .inr List.mem_cons_self
    · exact .inr (List.mem_cons_of_mem _ h)

theorem exhausted_of_lt (h : 0xFFFFFFFF < store.nextSequence) : Exhausted store.view := by
  rw [Store.nextSequence] at h
  rcases foldl_max_mem (store.records.map CatalogRecord.sequence) 0 with hmax | hmax
  · rw [hmax] at h
    omega
  · obtain ⟨r, hr, hsequence⟩ := List.mem_map.mp hmax
    refine ⟨r, ?_, ?_⟩
    · rw [Store.view, viewOf_records]
      exact hr
    · omega

/-- **A torn append.** For every catalog a run of the installer can leave, every record and every
length of it that reached the catalog: later records are recovered as they should be if and only if
nothing or all of the record was written, or the sequence numbers are used up. -/
theorem torn_append_iff (crypto : ModuleCrypto) (calls : List Call) (record : CatalogRecord)
    (hrecord : Encodable record) (n : ℕ) (hn : n ≤ installRecordSize) :
    SurvivesTear crypto (runCalls crypto {} calls) (recordBytes record) n ↔
      n = 0 ∨ n = installRecordSize ∨ Exhausted (recovered crypto calls) := by
  obtain ⟨store, hholds, -, -⟩ := runCalls_history crypto calls
  have hview : recovered crypto calls = store.view := hholds.recover
  constructor
  · intro hsurvives
    by_contra hno
    obtain ⟨hzero, hfull, hleft⟩ : n ≠ 0 ∧ n ≠ installRecordSize ∧ ¬ Exhausted store.view := by
      rw [hview] at hno
      tauto
    refine hholds.not_survivesTear crypto hrecord (Nat.pos_of_ne_zero hzero)
      (lt_of_le_of_ne hn hfull) ?_ hsurvives
    by_contra hlimit
    exact hleft (exhausted_of_lt (Nat.not_le.mp hlimit))
  · intro hcase later
    obtain ⟨tail, htail⟩ := (runCalls_grows crypto
      (appendPartialCatalog (runCalls crypto {} calls) (recordBytes record) n) later).appended
    refine ⟨tail, htail, ?_⟩
    by_cases hzero : n = 0
    · subst hzero
      rfl
    by_cases hfull : n = installRecordSize
    · rw [hfull, if_pos rfl, List.take_of_length_le hrecord.length.le]
    have hexhausted : Exhausted store.view := by
      rw [hview] at hcase
      tauto
    have hpart : ((recordBytes record).take n).length < installRecordSize := by
      rw [List.length_take, hrecord.length]
      omega
    -- nothing can be appended any more
    have hsame := (runCalls_grows crypto
      (appendPartialCatalog (runCalls crypto {} calls) (recordBytes record) n) later).exhausted
      (by rw [appendPartialCatalog, hholds.recover_torn hpart]; exact hexhausted)
    obtain rfl : tail = [] := List.append_right_eq_self.mp (htail.symm.trans hsame)
    rw [if_neg hfull, List.append_nil, List.append_nil, List.append_nil,
      hholds.recover_torn hpart, hholds.recover]

/-- One byte of a record has reached the empty catalog. A revocation behind it returns, and recovery
does not see it. -/
theorem torn_append_hides :
    (∃ flash', (smallCall (.revokeSigner thirdPartySigner)).outcome smallCrypto
        (appendPartialCatalog {} (recordBytes (revocationRecord 1 thirdPartySigner)) 1) =
          .ret () flash') ∧
      (recoverCatalog (runCalls smallCrypto
        (appendPartialCatalog {} (recordBytes (revocationRecord 1 thirdPartySigner)) 1)
        [smallCall (.revokeSigner thirdPartySigner)]).catalog).revokedSigners = ∅ ∧
      ¬ SurvivesTear smallCrypto {} (recordBytes (revocationRecord 1 thirdPartySigner)) 1 := by
  have hrev : Encodable (revocationRecord 1 thirdPartySigner) :=
    encodable_revocationRecord (by decide) (by decide) rfl (by decide)
  have hpart : ((recordBytes (revocationRecord 1 thirdPartySigner)).take 1).length <
      installRecordSize := by decide
  refine ⟨?_, ?_, Holds.empty.not_survivesTear smallCrypto hrev (by decide) (by decide)
    (by decide)⟩
  · obtain ⟨_, flash', hret⟩ := returns_iff.mp ((wp_revokeSigner_torn Holds.empty hpart hrev).mono
      (fun _ _ _ => trivial) (fun _ _ hno => hno) fun _ hno => hno)
    exact ⟨flash', hret⟩
  · have hafter := runCalls_revokeSigner_torn smallCrypto Holds.empty hpart hrev
    rw [smallCall, hafter, List.append_assoc, recoverCatalog, Holds.empty.iterValidRecords,
      show ({} : Store).nextSequence = 1 from rfl, iterValidRecords_torn hrev hpart]
    cases hdecode : decodeRecord ((recordBytes (revocationRecord 1 thirdPartySigner)).take 1 ++
        (recordBytes (revocationRecord 1 thirdPartySigner)).take (installRecordSize -
          ((recordBytes (revocationRecord 1 thirdPartySigner)).take 1).length)) with
    | error e => rfl
    | ok r =>
      -- the second byte of the block is the first of the magic
      obtain ⟨-, hraw⟩ := decodeRecord_eq_ok_iff.mp hdecode
      have hbyte := congrArg (fun raw => byteAt raw 1) hraw
      cases hbyte

/-- A catalog of revocations. -/
theorem holds_revocations {n : ℕ} (hn : n ≤ 0xFFFFFFFF) : ∃ store,
    Holds (runCalls smallCrypto {} (List.replicate n (smallCall (.revokeSigner thirdPartySigner))))
      store ∧ store.nextSequence = n + 1 := by
  induction n with
  | zero => exact ⟨{}, .empty, rfl⟩
  | succ n ih =>
    obtain ⟨store, hholds, hnext⟩ := ih (Nat.le_of_succ_le hn)
    have hroom : Encodable (revocationRecord store.nextSequence thirdPartySigner) :=
      encodable_revocationRecord (by omega) (by omega) rfl (by decide)
    have hcompletes : Completes smallCrypto smallInstaller (.revokeSigner thirdPartySigner) store
        (store.append (revocationRecord store.nextSequence thirdPartySigner)) :=
      completes_revokeSigner rfl hroom
    refine ⟨store.append (revocationRecord store.nextSequence thirdPartySigner), ?_, ?_⟩
    · rw [List.replicate_succ', runCalls_append]
      exact hcompletes.runCall hholds
    · have hmax := Nat.succ.inj hnext
      rw [Store.nextSequence, Store.append_records, List.map_append, List.foldl_append, hmax, hnext]
      exact congrArg Nat.succ (Nat.max_eq_right (Nat.le_succ n))

/-- On a catalog with one revocation, a second one survives exactly at its two ends; on a catalog
without a sequence number left, wherever it is torn. -/
theorem torn_append_iff_whole :
    Encodable (revocationRecord 2 thirdPartySigner) ∧
      (∀ n ≤ installRecordSize, SurvivesTear smallCrypto
        (runCalls smallCrypto {} [smallCall (.revokeSigner thirdPartySigner)])
        (recordBytes (revocationRecord 2 thirdPartySigner)) n ↔ n = 0 ∨ n = installRecordSize) ∧
      ∃ calls, SurvivesTear smallCrypto (runCalls smallCrypto {} calls)
        (recordBytes (revocationRecord 2 thirdPartySigner)) 1 := by
  have hrev : Encodable (revocationRecord 2 thirdPartySigner) :=
    encodable_revocationRecord (by decide) (by decide) rfl (by decide)
  refine ⟨hrev, fun n hn => ?_, ?_⟩
  · obtain ⟨store, hholds, hnext⟩ := @holds_revocations 1 (by decide)
    rw [List.replicate_one] at hholds
    rw [torn_append_iff smallCrypto _ _ hrev n hn, recovered, hholds.recover]
    refine or_congr_right (or_iff_left fun hexhausted => ?_)
    obtain ⟨r, hr, hle⟩ := hexhausted
    rw [Store.view, viewOf_records] at hr
    have hlt := Store.lt_nextSequence hr
    omega
  · obtain ⟨n, hlimit⟩ : ∃ n, n = 0xFFFFFFFF := ⟨_, rfl⟩
    obtain ⟨store, hholds, hnext⟩ := holds_revocations hlimit.le
    refine ⟨List.replicate n (smallCall (.revokeSigner thirdPartySigner)),
      (torn_append_iff smallCrypto _ _ hrev 1 (by decide)).mpr (.inr (.inr ?_))⟩
    rw [recovered, hholds.recover]
    exact exhausted_of_lt (by omega)

end Tear

end Stm32SecurityLab.ModuleInstall
