import Stm32SecurityLab.Boot.Decision
import Stm32SecurityLab.Installer.Quiet

/-!
# Starting from an unreadable journal

A recovery session starts without a usable journal: both copies are unreadable, or they contradict
each other. `update_installer_begin` then erases copy A, erases copy B and publishes `WRITING` in
copy A. Of a contradictory pair, copy B survives copy A for as long as its own erase has not begun
to take effect, and a boot in between would read copy B as if it had never been contradicted.

The device takes one verdict for each operation. The two reads that `update_installer_begin` starts
with succeed here, so the verdicts that follow are those of the erase of copy A, the erase of copy
B, and everything after it.

## Main definitions

* `bootstrapRecord` — the record that is published
* `HalfErased` — the cut falls between the loss of copy A and the loss of copy B
* `Unguessed` — no record but the new one can be read, and nothing is booted

## Main results

* `bootstrap_cut_iff` — what a power cut leaves behind
-/

namespace Stm32SecurityLab

open Crash Installer

open TwoCopy (Side)

/-! ### Verdicts, one at a time -/

section Verdicts

variable {d : Device} {vs : List Verdict}

theorem bootFlashRead_ok {address length : ℕ} (h₁ : Layout.flashBase ≤ address)
    (h₂ : address + length ≤ Layout.flashEnd) (h₃ : 0 < length) (hs : d.script = .ok :: vs) :
    bootFlashRead targetOps address length d =
      .ret (slice d.mem address length) { d with script := vs } := by
  have hwp : wp (bootFlashRead targetOps address length) d
      (fun bytes d' => bytes = slice d.mem address length ∧ d' = { d with script := vs })
      (fun _ _ => False) (fun _ => False) := by
    refine wp_bootFlashRead h₁ h₂ h₃ ?_
    change wp (targetRead address length) d _ _ _
    rw [targetRead]
    simp only [wp_bind, wp_check]
    refine ⟨fun _ => ?_, fun hn => absurd (targetRangeIsFlash_of_mem h₁ h₂) hn⟩
    rw [if_neg (by omega)]
    simp only [wp_bind]
    refine wp_verdict (fun hq => ?_) fun v vs' hs' => ?_
    · rw [Device.Quiet, hs] at hq
      cases hq
    · rw [hs] at hs'
      cases hs'
      exact ⟨rfl, rfl⟩
  cases hrun : bootFlashRead targetOps address length d with
  | ret bytes d' =>
    obtain ⟨rfl, rfl⟩ := hwp.ret hrun
    rfl
  | err e d' => exact (hwp.err hrun).elim
  | cut d' => exact (hwp.cut hrun).elim

/-- A read that fails leaves the flash as it was. -/
theorem bootFlashRead_fail {address length : ℕ} {damage : Damage} (h₁ : Layout.flashBase ≤ address)
    (h₂ : address + length ≤ Layout.flashEnd) (h₃ : 0 < length)
    (hs : d.script = .fail damage :: vs) :
    wp (bootFlashRead targetOps address length) d (fun _ _ => False)
      (fun _ d' => d' = { d with script := vs }) (fun _ => False) := by
  refine wp_bootFlashRead h₁ h₂ h₃ ?_
  change wp (targetRead address length) d _ _ _
  rw [targetRead]
  simp only [wp_bind, wp_check]
  refine ⟨fun _ => ?_, fun hn => absurd (targetRangeIsFlash_of_mem h₁ h₂) hn⟩
  rw [if_neg (by omega)]
  simp only [wp_bind]
  refine wp_verdict (fun hq => ?_) fun v vs' hs' => ?_
  · rw [Device.Quiet, hs] at hq
    cases hq
  · rw [hs] at hs'
    cases hs'
    rfl

/-- Recovery takes one verdict for each copy. -/
theorem bootMetadataRecoverFromFlash_ok {ε : Type} (hs : d.script = .ok :: .ok :: vs) :
    (bootMetadataRecoverFromFlash : Prog Device ε _) d =
      .ret (recovered d.mem) { d with script := vs } := by
  have hwp : wp (bootMetadataRecoverFromFlash : Prog Device ε _) d
      (fun r d' => r = recovered d.mem ∧ d' = { d with script := vs }) (fun _ _ => False)
      (fun _ => False) := by
    rw [bootMetadataRecoverFromFlash]
    simp only [wp_bind, wp_attempt]
    refine wp_of_ret (bootFlashRead_ok (by decide) (by decide) (by decide) hs) ?_
    refine wp_of_ret (bootFlashRead_ok (by decide) (by decide) (by decide) rfl) ?_
    exact ⟨rfl, rfl⟩
  cases hrun : (bootMetadataRecoverFromFlash : Prog Device ε _) d with
  | ret r d' =>
    obtain ⟨rfl, rfl⟩ := hwp.ret hrun
    rfl
  | err e d' => exact (hwp.err hrun).elim
  | cut d' => exact (hwp.cut hrun).elim

/-- An erase takes one verdict, and a cut leaves the damage it names. -/
theorem bootFlashEraseSector_verdict {flash : BootFlash} {sectorId : ℕ} {sector : BootFlashSector}
    (hsector : bootFlashSectors[sectorId]? = some sector) :
    wp (bootFlashEraseSector targetOps flash sectorId) d
      (fun _ d' => d'.mem = eraseMem d.mem sector ∧ d'.script = d.script.tail ∧
        ∀ v ∈ d.script.head?, v = .ok)
      (fun _ _ => (FlashOp.erase sector).Within flash → ∃ damage vs, d.script = .fail damage :: vs)
      (fun d' => ∃ damage vs, d.script = .cut damage :: vs ∧
        d'.mem = damage.sector.apply d.mem sector) := by
  rw [bootFlashEraseSector, bootFlashSectorById, hsector]
  simp only [wp_bind, wp_check, wp_ofExcept, Except.ok.injEq, reduceCtorEq, false_implies,
    implies_true, and_true, forall_eq']
  refine ⟨fun _ => ?_, fun hn hw => absurd (rangeIsWriteAllowed_iff.mpr hw) hn⟩
  change wp (targetEraseSector sectorId) d _ _ _
  rw [targetEraseSector, hsector]
  change wp (Device.operate _ _ _) d _ _ _
  rw [Device.operate]
  simp only [wp_bind, wp_modify]
  refine wp_verdict (fun hq => ?_) fun v vs hs => ?_
  · have hnil : d.script = [] := hq
    refine ⟨rfl, ?_, ?_⟩
    · rw [hnil]
      rfl
    · rw [hnil]
      exact fun v hv => (by cases hv)
  · have hcons : d.script = v :: vs := hs
    cases v with
    | ok =>
      refine ⟨rfl, by rw [hcons]; rfl, ?_⟩
      rw [hcons]
      intro v hv
      exact (Option.some.inj hv).symm
    | fail damage => exact fun _ => ⟨damage, vs, hcons⟩
    | cut damage => exact ⟨damage, vs, hcons, rfl⟩

end Verdicts

/-! ### The cut -/

/-- The record a recovery session publishes for the image in `headerBytes`. -/
def bootstrapRecord (headerBytes : List UInt8) : BootMetadataRecord where
  sequence := 1
  state := .writing
  activeSlot := bootSlotNone
  candidateSlot := BootSlotId.a.toUInt32
  candidateImageVersion := (decodeManifestBytes (byteAt headerBytes)).imageVersion
  bootAttemptCount := 0
  confirmationState := 0
  result := 0

/-- The power goes after copy A has been lost and before copy B is: during the erase of copy A once
it has taken effect, or during the erase of copy B before it has. -/
def HalfErased (verdicts : List Verdict) : Prop :=
  (∃ damage vs, verdicts = .cut damage :: vs ∧ damage.sector ≠ .unchanged) ∨
    ∃ damage vs, verdicts = .ok :: .cut damage :: vs ∧ damage.sector = .unchanged

/-- The journal is still unreadable, or it holds the new record. -/
def Rebuilt (next : BootMetadataRecord) (m : Mem) : Prop :=
  journal m = .error .ambiguous ∨ journal m = .error .noValidCopy ∨ journal m = .ok next

section Cut

variable {d : Device} {m m' : Mem} {next : BootMetadataRecord}

theorem halfErased_cut {damage : Damage} {vs : List Verdict} :
    HalfErased (.cut damage :: vs) ↔ damage.sector ≠ .unchanged := by
  constructor
  · rintro (⟨_, _, h, hd⟩ | ⟨_, _, h, -⟩)
    · cases h
      exact hd
    · cases h
  · exact fun h => .inl ⟨damage, vs, rfl, h⟩

theorem halfErased_ok_cut {damage : Damage} {vs : List Verdict} :
    HalfErased (.ok :: .cut damage :: vs) ↔ damage.sector = .unchanged := by
  constructor
  · rintro (⟨_, _, h, -⟩ | ⟨_, _, h, hd⟩)
    · cases h
    · cases h
      exact hd
  · exact fun h => .inr ⟨damage, vs, rfl, h⟩

theorem not_halfErased_of_ok {verdicts : List Verdict} (h : ∀ v ∈ verdicts.head?, v = .ok)
    (h' : ∀ v ∈ verdicts.tail.head?, v = .ok) : ¬ HalfErased verdicts := by
  rintro (⟨damage, vs, rfl, -⟩ | ⟨damage, vs, rfl, -⟩)
  · cases h _ rfl
  · cases h' _ rfl

/-- Without copy A a contradicted copy B is read. -/
theorem journal_of_first_lost (hj : journal m = .error .ambiguous)
    (h : copies m' = Function.update (copies m) .first none) :
    ∃ old, copies m .second = some old ∧ journal m' = .ok old := by
  rw [journal_eq_read] at hj
  cases hb : copies m .second with
  | none =>
    exfalso
    cases ha : copies m .first with
    | none => rw [TwoCopy.read, ha, hb] at hj; cases hj
    | some a => rw [TwoCopy.read, ha, hb] at hj; cases hj
  | some old =>
    refine ⟨old, rfl, ?_⟩
    have hfirst : copies m' .first = none := by rw [h, Function.update_self]
    have hsecond : copies m' .second = some old := by
      rw [h, Function.update_of_ne (by decide), hb]
    rw [journal_eq_read, TwoCopy.read, hfirst, hsecond]

/-- Copy A alone is lost: what is left is the old record of a contradicted pair. -/
theorem rebuilt_first_lost_iff
    (hj : journal m = .error .ambiguous ∨ journal m = .error .noValidCopy)
    (h : copies m' = Function.update (copies m) .first none) :
    Rebuilt next m' ↔ ¬ (journal m = .error .ambiguous ∧ copies m .second ≠ some next) := by
  rcases hj with hj | hj
  · obtain ⟨old, hold, hj'⟩ := journal_of_first_lost hj h
    rw [Rebuilt, hj', hj, hold]
    constructor
    · rintro (h | h | h)
      · cases h
      · cases h
      · exact fun hne => hne.2 (congrArg some (Except.ok.inj h))
    · intro hne
      exact .inr (.inr (congrArg Except.ok (Option.some.inj (not_not.mp fun hn => hne ⟨rfl, hn⟩))))
  · have hnone := copies_of_noValidCopy hj
    have hj' : journal m' = .error .noValidCopy := by
      refine journal_of_copies (h.trans ?_)
      rw [hnone]
      exact Function.update_eq_self _ _
    refine ⟨fun _ hn => ?_, fun _ => .inr (.inl hj')⟩
    rw [hj] at hn
    cases hn.1

/-- A cut erase of one copy. -/
theorem copies_cut {side : Side} (dm : SectorDamage) (hm : m' = dm.apply m (copySector side)) :
    (dm = .unchanged → copies m' = copies m) ∧
      (dm ≠ .unchanged → copies m' = Function.update (copies m) side none) := by
  constructor
  · rintro rfl
    rw [hm]
    rfl
  · intro hdm
    have honly : OnlyCopy side m m' := by
      rw [hm]
      exact fun x hx => dm.apply_of_not_mem hx
    rw [honly.copies_eq, hm, copies_damaged side m hdm]

/-- **The rebuild, cut short.** -/
theorem bootMetadataReinitializeForRecovery_cut {flash : BootFlash}
    (hj : journal d.mem = .error .ambiguous ∨ journal d.mem = .error .noValidCopy) :
    wp (bootMetadataReinitializeForRecovery flash next) d
      (fun _ d' => journal d'.mem = .ok next ∧ ¬ HalfErased d.script) (fun _ _ => True)
      (fun d' => Rebuilt next d'.mem ↔ ¬ (journal d.mem = .error .ambiguous ∧
        copies d.mem .second ≠ some next ∧ HalfErased d.script)) := by
  have hsame : ∀ {m' : Mem}, copies m' = copies d.mem → Rebuilt next m' := by
    intro m' h
    rw [Rebuilt, journal_congr h]
    rcases hj with hj | hj
    · exact .inl hj
    · exact .inr (.inl hj)
  have hwhole : ∀ {m' : Mem}, ¬ HalfErased d.script → Rebuilt next m' →
      (Rebuilt next m' ↔ ¬ (journal d.mem = .error .ambiguous ∧
        copies d.mem .second ≠ some next ∧ HalfErased d.script)) :=
    fun hhalf h => ⟨fun _ hn => hhalf hn.2.2, fun _ => h⟩
  have hlost : ∀ {m' : Mem}, HalfErased d.script →
      copies m' = Function.update (copies d.mem) .first none →
      (Rebuilt next m' ↔ ¬ (journal d.mem = .error .ambiguous ∧
        copies d.mem .second ≠ some next ∧ HalfErased d.script)) := by
    intro m' hhalf h
    rw [rebuilt_first_lost_iff hj h, and_iff_left hhalf]
  rw [bootMetadataReinitializeForRecovery]
  simp only [wp_bind, wp_check, wp_mapErr]
  refine ⟨fun hnext => ?_, fun _ => trivial⟩
  have hcanon := (bootMetadataValidateTransition_ok hnext.2.2.2.2).2.2.1
  refine (bootFlashEraseSector_verdict (bootFlashSectors_copy .first)).mono ?_
    (fun _ _ _ => trivial) ?_
  · rintro _ d₁ ⟨hmem₁, hscript₁, hok₁⟩
    have h₁ : copies d₁.mem = Function.update (copies d.mem) .first none :=
      (copies_cut .erased hmem₁).2 SectorDamage.noConfusion
    have hboth : Function.update (copies d₁.mem) .second none = fun _ => none := by
      funext side
      cases side <;> simp [h₁]
    refine (bootFlashEraseSector_verdict (bootFlashSectors_copy .second)).mono ?_
      (fun _ _ _ => trivial) ?_
    · rintro _ d₂ ⟨hmem₂, -, hok₂⟩
      have h₂ : copies d₂.mem = fun _ => none :=
        ((copies_cut .erased hmem₂).2 SectorDamage.noConfusion).trans hboth
      have hfirst : Function.update (copies d₂.mem) .first none = fun _ => none := by
        funext side
        cases side <;> simp [h₂]
      rw [hscript₁] at hok₂
      have hhalf := not_halfErased_of_ok hok₁ hok₂
      refine wp.mono (writeCopy_spec hcanon : wp (writeCopy flash (copyId .first) next) d₂ _ _ _)
        (fun _ d₃ h => ⟨journal_single (by rw [h, h₂]), hhalf⟩) (fun _ _ _ => trivial) ?_
      rintro d₃ (h | h | h)
      · exact hwhole hhalf (.inr (.inl (journal_of_copies (h.trans h₂))))
      · exact hwhole hhalf (.inr (.inl (journal_of_copies (h.trans hfirst))))
      · exact hwhole hhalf (.inr (.inr (journal_single (by rw [h, h₂]))))
    · rintro d₂ ⟨damage, vs, hs, hmem₂⟩
      rw [hscript₁] at hs
      have hcons : d.script = .ok :: .cut damage :: vs := by
        cases hd : d.script with
        | nil => rw [hd] at hs; cases hs
        | cons v rest =>
          rw [hd] at hs hok₁
          rw [hok₁ v rfl]
          exact congrArg _ hs
      by_cases hdm : damage.sector = .unchanged
      · refine hlost (by rw [hcons]; exact halfErased_ok_cut.mpr hdm) ?_
        exact ((copies_cut damage.sector hmem₂).1 hdm).trans h₁
      · refine hwhole (by rw [hcons]; exact fun h => hdm (halfErased_ok_cut.mp h)) ?_
        exact .inr (.inl (journal_of_copies (((copies_cut damage.sector hmem₂).2 hdm).trans hboth)))
  · rintro d₁ ⟨damage, vs, hs, hmem₁⟩
    by_cases hdm : damage.sector = .unchanged
    · refine hwhole (by rw [hs]; exact fun h => halfErased_cut.mp h hdm) (hsame ?_)
      exact (copies_cut damage.sector hmem₁).1 hdm
    · refine hlost (by rw [hs]; exact halfErased_cut.mpr hdm) ?_
      exact (copies_cut damage.sector hmem₁).2 hdm

/-! ### The session -/

variable {crypto : Crypto} {publicKey headerBytes : List UInt8} {s : Installer} {vs : List Verdict}

theorem maybeFault_dev {point : UpdateInstallFaultPoint} {detail : UInt32} :
    wp (maybeFault point detail) s (fun _ s' => s'.dev = s.dev) (fun _ _ => True)
      (fun _ => False) := by
  rw [maybeFault]
  simp only [wp_bind, wp_getSession]
  split
  · exact rfl
  · simp only [wp_bind, wp_modifySession, wp_ofExcept]
    exact ⟨fun _ _ => trivial, fun _ _ => trivial⟩

/-- The checks take the verdicts of two reads. -/
theorem beginChecks_verdicts (hs : s.dev.script = .ok :: .ok :: vs) :
    wp (beginChecks crypto headerBytes) s (fun _ s' => s'.dev.script = vs) (fun _ _ => True)
      (fun _ => False) := by
  rw [beginChecks]
  simp only [wp_bind, wp_getSession, onDev, wp_zoom]
  refine wp_of_ret (bootMetadataRecoverFromFlash_ok hs) ?_
  simp only [wp_ofExcept, wp_check]
  refine ⟨fun x _ => ⟨fun _ => ?_, fun _ => trivial⟩, fun _ _ => trivial⟩
  refine wp_modifyResult fun result => ⟨fun header _ => ?_, fun _ _ => trivial⟩
  simp only [wp_modifySession, wp_get]
  refine ⟨fun _ _ => ⟨fun _ => ⟨fun _ _ => ?_, fun _ _ => trivial⟩, fun _ => trivial⟩,
    fun _ _ => trivial⟩
  exact wp_modifyResult fun _ => rfl

/-- A cut of the commit of `WRITING` is a cut of the rebuild. -/
theorem commitWriting_cut (hboot : SelectedBootstrap s.session)
    (hversion : s.session.header.manifest.imageVersion =
      (decodeManifestBytes (byteAt headerBytes)).imageVersion)
    (hj : journal s.dev.mem = .error .ambiguous ∨ journal s.dev.mem = .error .noValidCopy) :
    wp commitWriting s
      (fun _ s' => journal s'.dev.mem = .ok (bootstrapRecord headerBytes) ∧
        ¬ HalfErased s.dev.script)
      (fun _ _ => True)
      (fun s' => Rebuilt (bootstrapRecord headerBytes) s'.dev.mem ↔
        ¬ (journal s.dev.mem = .error .ambiguous ∧
          copies s.dev.mem .second ≠ some (bootstrapRecord headerBytes) ∧
          HalfErased s.dev.script)) := by
  rw [commitWriting, wp_bind, wp_getSession]
  rw [if_pos ⟨hboot.bootstrap, by rw [hboot.recovery], by rw [hboot.recovery]⟩]
  simp only [wp_bind, wp_ofExcept]
  refine ⟨fun next hnext => ?_, fun _ _ => trivial⟩
  have hfields := (bootMetadataPrepareNext_ok.mp (mapError_eq_ok.mp hnext)).2.2
  obtain rfl : next = bootstrapRecord headerBytes := by
    rw [hfields, hboot.before, hboot.activeSlotId, hboot.candidate, hversion]
    rfl
  refine maybeFault_dev.mono (fun _ s₁ h₁ => ?_) (fun _ _ _ => trivial) (fun _ h => h.elim)
  simp only [onDev, wp_zoom, wp_mapErr]
  rw [← h₁] at hj ⊢
  exact bootMetadataReinitializeForRecovery_cut hj

theorem Selected.bootstrap (hsel : Selected publicKey s.session) {flag : Bool}
    (hfresh : metadataOrBootstrap s.session.options.recoveryBootstrap (journal s.dev.mem) =
      .ok (s.session.metadataBefore, flag))
    (hj : journal s.dev.mem = .error .ambiguous ∨ journal s.dev.mem = .error .noValidCopy) :
    SelectedBootstrap s.session := by
  rcases hsel.source with ⟨slot, hup⟩ | hboot
  · have hok := hup.recorded hfresh
    rcases hj with hj | hj <;> rw [hj] at hok <;> cases hok
  · exact hboot

/-- **`update_installer_begin` without a journal, cut short.** -/
theorem updateInstallerBegin_cut (hsel : Selected publicKey s.session)
    (hs : s.dev.script = .ok :: .ok :: vs)
    (hj : journal s.dev.mem = .error .ambiguous ∨ journal s.dev.mem = .error .noValidCopy) :
    wp (updateInstallerBegin crypto headerBytes) s (fun _ _ => True) (fun _ _ => True)
      (fun s' => Rebuilt (bootstrapRecord headerBytes) s'.dev.mem ↔
        ¬ (journal s.dev.mem = .error .ambiguous ∧
          copies s.dev.mem .second ≠ some (bootstrapRecord headerBytes) ∧ HalfErased vs)) := by
  rw [updateInstallerBegin]
  simp only [wp_bind, wp_getSession, wp_check, wp_failSession]
  refine ⟨fun _ => ?_, fun _ => trivial⟩
  refine (beginChecks_spec.and (beginChecks_verdicts hs)).mono ?_ (fun _ _ _ => trivial)
    (fun _ h => h.2.elim)
  rintro _ s₁ ⟨⟨hread, header, size, hsession₁, hacc, -⟩, hscript₁⟩
  have hmem₁ : s₁.dev.mem = s.dev.mem := hread.eq_of_false.1
  obtain ⟨flag, hfresh⟩ := hacc.fresh
  have hboot := hsel.bootstrap hfresh hj
  have hboot₁ : SelectedBootstrap s₁.session := by
    rw [hsession₁]
    exact ⟨hboot.before, hboot.active, hboot.candidate, hboot.activeSlotId, hboot.recovery,
      hboot.bootstrap⟩
  have hversion : s₁.session.header.manifest.imageVersion =
      (decodeManifestBytes (byteAt headerBytes)).imageVersion := by
    rw [hsession₁]
    exact congrArg SignedManifest.imageVersion hacc.accepted.manifest
  have hsel₁ : Selected publicKey s₁.session := by
    rw [hsession₁]
    exact hsel.of_header header size
  have hfresh₁ : metadataOrBootstrap s₁.session.options.recoveryBootstrap (journal s₁.dev.mem) =
      .ok (s₁.session.metadataBefore, flag) := by
    rw [hsession₁, hmem₁]
    exact hfresh
  rw [← hmem₁, ← hscript₁]
  rw [← hmem₁] at hj
  refine ((commitWriting_cut hboot₁ hversion hj).and (commitWriting_spec hsel₁ hfresh₁)).mono ?_
    (fun _ _ _ => trivial) (fun _ h => h.1)
  rintro _ s₂ ⟨⟨hj₂, hhalf⟩, hsteady, -⟩
  -- from here on the new record is in the journal, and nothing else is written to it
  have hdone : ∀ {d' : Device}, journal d'.mem = .ok (bootstrapRecord headerBytes) →
      (Rebuilt (bootstrapRecord headerBytes) d'.mem ↔
        ¬ (journal s₁.dev.mem = .error .ambiguous ∧
          copies s₁.dev.mem .second ≠ some (bootstrapRecord headerBytes) ∧
          HalfErased s₁.dev.script)) :=
    fun h => ⟨fun _ hn => hhalf hn.2.2, fun _ => .inr (.inr h)⟩
  rw [wp_modifySession]
  refine wp.mono (readBackWriting_spec (by exact hj₂)) ?_ (fun _ _ _ => trivial) ?_
  · rintro _ s₃ ⟨hread₃, hsession₃, -⟩
    have hj₃ : journal s₃.dev.mem = .ok (bootstrapRecord headerBytes) := by
      rw [hread₃.eq_of_false.1]
      exact hj₂
    have hrestricted₃ : s₃.session.Restricted := by
      rw [hsession₃]
      exact hsteady.restricted hsel₁.restricted
    refine wp.mono (programHeader_spec hrestricted₃) (fun _ _ _ => trivial) (fun _ _ _ => trivial) ?_
    exact fun s₄ h₄ => hdone ((journal_of_inSlot h₄).trans hj₃)
  · intro s₃ hread₃
    refine hdone ?_
    rw [hread₃.eq_of_false.1]
    exact hj₂

/-- Nothing is booted from a journal that is unreadable or holds the new record. -/
theorem Rebuilt.not_bootable (h : Rebuilt (bootstrapRecord headerBytes) m)
    (options : BootSlotSelectionOptions) (sel sel' : Selector) (hm : sel.dev.mem = m) :
    bootSlotSelectionSelect options sel ≠ .ret () sel' := by
  intro hret
  obtain ⟨-, metadata, hj, hselects⟩ :=
    (bootSlotSelectionSelect_spec : wp (bootSlotSelectionSelect options) sel _ _ _).ret hret
  rw [hm] at hj
  rcases h with h | h | h <;> rw [h] at hj <;> cases hj
  rcases hselects with ⟨-, -, ⟨next, -, hstep, hstate, -⟩, -⟩ | ⟨-, -, slot, hactive, -⟩
  · rcases hstep.state with ⟨-, ⟨hs, -⟩ | ⟨hs, -⟩⟩ | ⟨hs, -⟩
    · cases hs
    · cases hs
    · rw [hstate] at hs
      cases hs
  · exact slot.toUInt32_ne_none hactive.symm

end Cut

/-- No record but the new one can be read, and nothing is booted. -/
def Unguessed (headerBytes : List UInt8) (m : Mem) : Prop :=
  Rebuilt (bootstrapRecord headerBytes) m ∧ ∀ options (sel sel' : Selector), sel.dev.mem = m →
    bootSlotSelectionSelect options sel ≠ .ret () sel'

theorem unguessed_iff {headerBytes : List UInt8} {m : Mem} :
    Unguessed headerBytes m ↔ Rebuilt (bootstrapRecord headerBytes) m :=
  ⟨And.left, fun h => ⟨h, h.not_bootable⟩⟩

/-- The session goes on with the verdicts `vs`. -/
def withVerdicts (s : Installer) (vs : List Verdict) : Installer :=
  { s with dev := { s.dev with script := vs } }

/-- **What a recovery session that loses power leaves behind.** It started from an unreadable
journal. No old record can be read afterwards, and nothing is booted, unless the copies contradicted
each other and the power went between the loss of copy A and the loss of copy B. -/
theorem bootstrap_cut_iff (crypto : Crypto) (publicKey headerBytes : List UInt8) (flash : BootFlash)
    (options : UpdateInstallOptions) (withResult : Bool) (s₀ s s' : Installer)
    (verdicts : List Verdict)
    (hj : journal s₀.dev.mem = .error .ambiguous ∨ journal s₀.dev.mem = .error .noValidCopy)
    (hinit : updateInstallerSessionInit flash publicKey options withResult s₀ = .ret () s)
    (hcut : updateInstallerBegin crypto headerBytes (withVerdicts s (.ok :: .ok :: verdicts)) =
      .cut s') :
    Unguessed headerBytes s'.dev.mem ↔
      ¬ (journal s₀.dev.mem = .error .ambiguous ∧
        copies s₀.dev.mem .second ≠ some (bootstrapRecord headerBytes) ∧ HalfErased verdicts) := by
  obtain ⟨hread, -, hsel⟩ := (updateInstallerSessionInit_spec :
    wp (updateInstallerSessionInit flash publicKey options withResult) s₀ _ _ _).ret hinit
  have hmem : s.dev.mem = s₀.dev.mem := hread.eq_of_false.1
  rw [← hmem] at hj ⊢
  rw [unguessed_iff]
  have hcut' := (updateInstallerBegin_cut (s := withVerdicts s (.ok :: .ok :: verdicts)) hsel rfl hj :
    wp (updateInstallerBegin crypto headerBytes) _ _ _ _)
  exact hcut'.cut hcut

/-! ### Losing power in between -/

section Between

variable {crypto : Crypto} {publicKey headerBytes : List UInt8} {s : Installer} {damage : Damage}
  {vs : List Verdict}

theorem bootMetadataReinitializeForRecovery_between {flash : BootFlash} {d : Device}
    (hw : MetadataWritable flash) (hs : d.script = .ok :: .cut damage :: vs) :
    wp (bootMetadataReinitializeForRecovery flash (bootstrapRecord headerBytes)) d
      (fun _ _ => False)
      (fun _ _ => bootMetadataValidateTransition bootMetadataEmpty (bootstrapRecord headerBytes) ≠
        .ok ())
      (fun _ => True) := by
  rw [bootMetadataReinitializeForRecovery]
  simp only [wp_bind, wp_check, wp_mapErr]
  refine ⟨fun _ => ?_, fun hn hval => hn ⟨rfl, rfl, rfl, rfl, hval⟩⟩
  refine (bootFlashEraseSector_verdict (bootFlashSectors_copy .first)).mono ?_ ?_
    (fun _ _ => trivial)
  · rintro _ d₁ ⟨-, hscript₁, -⟩
    rw [hs] at hscript₁
    refine (bootFlashEraseSector_verdict (bootFlashSectors_copy .second)).mono ?_ ?_
      (fun _ _ => trivial)
    · rintro _ d₂ ⟨-, -, hok⟩
      rw [hscript₁] at hok
      cases hok _ rfl
    · intro _ d₂ hfail
      obtain ⟨damage', vs', h⟩ := hfail (hw.within .second)
      rw [hscript₁] at h
      cases h
  · intro _ d₁ hfail
    obtain ⟨damage', vs', h⟩ := hfail (hw.within .first)
    rw [hs] at h
    cases h

/-- The power does go if the device says so. -/
theorem updateInstallerBegin_between (hadmitted : BeginAdmitted crypto s headerBytes)
    (hsel : Selected publicKey s.session)
    (hj : journal s.dev.mem = .error .ambiguous ∨ journal s.dev.mem = .error .noValidCopy)
    (hhook : s.session.options.faultHook = none)
    (haligned : s.session.restrictedFlash.programAlignment ∣ 8)
    (hs : s.dev.script = .ok :: .ok :: .ok :: .cut damage :: vs) :
    ∃ s', updateInstallerBegin crypto headerBytes s = .cut s' := by
  obtain ⟨hstate, header, next, hacc, hnext⟩ := hadmitted
  obtain ⟨flag, hfresh⟩ := hacc.fresh
  have hboot := hsel.bootstrap hfresh hj
  have hwp : wp (updateInstallerBegin crypto headerBytes) s (fun _ _ => False) (fun _ _ => False)
      (fun _ => True) := by
    rw [updateInstallerBegin]
    simp only [wp_bind, wp_getSession, wp_check, wp_failSession]
    refine ⟨fun _ => ?_, fun hn => hn hstate⟩
    have hchecks := returns_beginChecks (bootMetadataRecoverFromFlash_ok hs) rfl haligned hacc
    refine ((beginChecks_spec.and (beginChecks_verdicts hs)).and hchecks).mono ?_
      (fun _ _ h => h.2) (fun _ h => h.2.elim)
    rintro _ s₁ ⟨⟨⟨hread, header', size, hsession₁, hacc', -⟩, hscript₁⟩, -⟩
    obtain rfl : header = header' := hacc'.accepted.unique hacc.accepted
    rw [commitWriting]
    simp only [wp_bind, wp_getSession, hsession₁]
    rw [if_pos ⟨hboot.bootstrap, by rw [hboot.recovery], by rw [hboot.recovery]⟩, hnext]
    have hhook₁ : s₁.session.options.faultHook = none := by
      rw [hsession₁]
      exact hhook
    simp only [Except.mapError, Prog.ofExcept, wp_bind, wp_pure, wp_maybeFault hhook₁, onDev, wp_zoom,
      wp_mapErr]
    obtain ⟨-, hval, hfields⟩ := bootMetadataPrepareNext_ok.mp hnext
    obtain rfl : next = bootstrapRecord headerBytes := by
      rw [hfields, hboot.before, hboot.activeSlotId, hboot.candidate, hacc.accepted.manifest]
      rfl
    rw [hboot.before] at hval
    have hw : MetadataWritable s.session.restrictedFlash :=
      metadataWritable_of_restricted haligned hsel.restricted
    exact wp.mono (bootMetadataReinitializeForRecovery_between hw hscript₁) (fun _ _ h => h.elim)
      (fun _ _ h => h hval) (fun _ _ => trivial)
  cases hrun : updateInstallerBegin crypto headerBytes s with
  | ret _ s' => exact (hwp.ret hrun).elim
  | err e s' => exact (hwp.err hrun).elim
  | cut s' => exact ⟨s', rfl⟩

end Between

/-! ### A contradictory pair -/

/-- A recovery session with the image for slot A, on a device whose copies contradict each other. -/
theorem recovery_session_between {s₀ : Installer} (hq : s₀.dev.Quiet)
    (hj₀ : journal s₀.dev.mem = .error .ambiguous) : ∃ s,
    updateInstallerSessionInit updateModeFlash factoryKey (updateModeOptions true) false s₀ =
      .ret () s ∧
    s.dev.mem = s₀.dev.mem ∧ Selected factoryKey s.session ∧
    ∀ damage vs, ∃ s', updateInstallerBegin factoryCrypto factoryHeader
      (withVerdicts s (.ok :: .ok :: .ok :: .cut damage :: vs)) = .cut s' := by
  have hopen : Openable (updateModeOptions true).recoveryBootstrap s₀.dev.mem := by
    rw [Openable, hj₀]
    rfl
  have hreturns : Returns (updateInstallerSessionInit updateModeFlash factoryKey
      (updateModeOptions true) false) s₀ :=
    (returns_updateInstallerSessionInit_iff hq).mpr ⟨by decide, hopen⟩
  obtain ⟨_, s, hinit⟩ := returns_iff.mp hreturns
  obtain ⟨hread, hinitialized, hsel⟩ := (updateInstallerSessionInit_spec :
    wp (updateInstallerSessionInit updateModeFlash factoryKey (updateModeOptions true) false)
      s₀ _ _ _).ret hinit
  have hmem : s.dev.mem = s₀.dev.mem := hread.eq_of_false.1
  refine ⟨s, hinit, hmem, hsel, fun damage vs => ?_⟩
  have hj : journal s.dev.mem = .error .ambiguous := by rw [hmem, hj₀]
  obtain ⟨flag, hfresh⟩ := hinitialized.fresh
  rw [← hmem] at hfresh
  have hboot := hsel.bootstrap hfresh (.inl hj)
  have haccepted : HeaderAccepted factoryCrypto s.session.publicKey factoryHeader
      (bootSlots s.session.candidate) (headerOf factoryManifest factorySignature) := by
    rw [hsel.key, hboot.candidate]
    exact factoryHeader_accepted
  have hversion : confirmedVersionForUpdate factoryCrypto s.session s.dev.mem =
      .ok (minImageVersion - 1) := by
    rw [confirmedVersionForUpdate, hboot.before, hboot.active]
    rfl
  have hnext : bootMetadataPrepareNext s.session.metadataBefore .writing s.session.activeSlotId
      s.session.candidate.toUInt32
      (headerOf factoryManifest factorySignature).manifest.imageVersion 0 0 0 =
      .ok ⟨1, .writing, bootSlotNone, BootSlotId.a.toUInt32, 2, 0, 0, 0⟩ := by
    rw [hboot.before, hboot.activeSlotId, hboot.candidate]
    decide
  have hhook : s.session.options.faultHook = none := by
    rw [hinitialized.options]
    rfl
  have haligned : s.session.restrictedFlash.programAlignment ∣ 8 := by
    rw [hinitialized.alignment]
    decide
  exact updateInstallerBegin_between (s := withVerdicts s _) ⟨hinitialized.state, _, _,
    ⟨⟨flag, hfresh⟩, haccepted, _, hversion, by decide⟩, hnext⟩ hsel (.inl hj) hhook haligned rfl

/-- A second record with the sequence number of `factoryRecord`. -/
def rivalRecord : BootMetadataRecord := { factoryRecord with candidateImageVersion := 3 }

/-- An installer on a device whose copies are these two. -/
def contradicted : Installer where
  session := {}
  programBuffer := fun _ => 0
  result := {}
  dev :=
    { mem := memcpy (memcpy (fun _ => 0xFF) Layout.bootMetadataABase (encodedRecord factoryRecord))
        Layout.bootMetadataBBase (encodedRecord rivalRecord)
      script := []
      log := [] }

theorem copies_contradicted :
    copies contradicted.dev.mem .first = some factoryRecord ∧
      copies contradicted.dev.mem .second = some rivalRecord := by
  have hfirst := slice_memcpy (fun _ => 0xFF) Layout.bootMetadataABase (encodedRecord factoryRecord)
  have hsecond := slice_memcpy (memcpy (fun _ => 0xFF) Layout.bootMetadataABase
    (encodedRecord factoryRecord)) Layout.bootMetadataBBase (encodedRecord rivalRecord)
  rw [encodedRecord_length] at hfirst hsecond
  refine ⟨copies_eq_some (by decide) ?_, copies_eq_some (by decide) hsecond⟩
  rw [← hfirst]
  refine slice_congr fun x _ hx => if_neg ?_
  have hbefore : Layout.bootMetadataABase + 128 ≤ Layout.bootMetadataBBase := by decide
  change x < Layout.bootMetadataABase + 128 at hx
  omega

theorem journal_contradicted : journal contradicted.dev.mem = .error .ambiguous := by
  rw [journal_eq_read, TwoCopy.read, copies_contradicted.1, copies_contradicted.2]
  rfl

theorem bootstrap_cut_contradicted : ∃ s s',
    updateInstallerSessionInit updateModeFlash factoryKey (updateModeOptions true) false
      contradicted = .ret () s ∧
    updateInstallerBegin factoryCrypto factoryHeader
      (withVerdicts s [.ok, .ok, .ok, .cut ⟨0, .erased⟩]) = .cut s' ∧
    Unguessed factoryHeader s'.dev.mem := by
  obtain ⟨s, hinit, -, -, hbegin⟩ := @recovery_session_between contradicted rfl journal_contradicted
  obtain ⟨s', hcut⟩ := hbegin ⟨0, .erased⟩ []
  refine ⟨s, s', hinit, hcut, ?_⟩
  refine (bootstrap_cut_iff factoryCrypto factoryKey factoryHeader updateModeFlash
    (updateModeOptions true) false contradicted s s' _ (.inl journal_contradicted) hinit hcut).mpr ?_
  rintro ⟨-, -, hhalf⟩
  cases halfErased_ok_cut.mp hhalf

/-- **Half of a contradictory pair is believed** after a power cut between the two erases. -/
theorem contradicted_guessed : ∃ s s',
    updateInstallerSessionInit updateModeFlash factoryKey (updateModeOptions true) false
      contradicted = .ret () s ∧
    updateInstallerBegin factoryCrypto factoryHeader
      (withVerdicts s [.ok, .ok, .ok, .cut ⟨0, .unchanged⟩]) = .cut s' ∧
    journal contradicted.dev.mem = .error .ambiguous ∧ ¬ Unguessed factoryHeader s'.dev.mem := by
  obtain ⟨s, hinit, hmem, hsel, hbegin⟩ :=
    @recovery_session_between contradicted rfl journal_contradicted
  obtain ⟨s', hcut⟩ := hbegin ⟨0, .unchanged⟩ []
  have hj : journal s.dev.mem = .error .ambiguous := by rw [hmem, journal_contradicted]
  have hrival : copies s.dev.mem .second ≠ some (bootstrapRecord factoryHeader) := by
    rw [hmem, copies_contradicted.2]
    exact fun h => absurd (congrArg BootMetadataRecord.state (Option.some.inj h)) (by decide)
  refine ⟨s, s', hinit, hcut, journal_contradicted, fun h => ?_⟩
  have hwp : wp (updateInstallerBegin factoryCrypto factoryHeader)
      (withVerdicts s [.ok, .ok, .ok, .cut ⟨0, .unchanged⟩]) _ _ _ :=
    updateInstallerBegin_cut hsel rfl (.inl hj)
  exact (hwp.cut hcut).mp (unguessed_iff.mp h) ⟨hj, hrival, halfErased_ok_cut.mpr rfl⟩

end Stm32SecurityLab
