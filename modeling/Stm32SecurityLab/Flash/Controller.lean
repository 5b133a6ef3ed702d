import Stm32SecurityLab.Flash.Device
import Stm32SecurityLab.Crash.Refines

/-!
# The registers of the flash

`boot_flash_target.c` down to its register accesses. The flash controller is whatever answers
them: it is a parameter, and a `FlashContract` says what the code relies on.

```
store      a byte is programmed, or the status register will say that it was not
STRT       the sector in CR is erased, or the status register will say that it was not
SR         an error stays in the register, and so does BSY when an operation does not end
CR         SER and MER read as they were written, and so does LOCK when it is written as zero
ACR        DCEN reads as it was written; DCRST empties the data cache while that is off
```

The first two hold while the data cache is off, and switching it on shows the flash as it is only
when the cache is empty. The power may go at any access. Under the contract everything that the code can do to the flash is
what the device does with a suitable list of verdicts, so what is proved about the device is true
of the registers.

## Main definitions

* `FlashController`, `FlashContract`
* `FlashController.ops` — the backend, down to the registers
* `runFlashCalls` — calls of `boot_flash.c` one after the other, whatever becomes of them

## Main results

* `refines_targetEraseSector`, `refines_targetProgram`
* `boot_flash_refines` — calls on the registers are calls on the device
-/

namespace Stm32SecurityLab

open Crash

/-! ### Register constants -/

def flashKey1 : UInt32 := 0x45670123
def flashKey2 : UInt32 := 0xCDEF89AB

def flashAcrDcen : UInt32 := 0x400
def flashAcrDcrst : UInt32 := 0x1000

/-- `FLASH_SR_CLEAR_MASK`. -/
def flashSrClearMask : UInt32 := 0x1F3

/-- `FLASH_SR_ERROR_MASK`. -/
def flashSrErrorMask : UInt32 := 0x1F2

def flashSrBsy : UInt32 := 0x10000

def flashCrPg : UInt32 := 0x1
def flashCrSer : UInt32 := 0x2
def flashCrMer : UInt32 := 0x4
def flashCrSnbMask : UInt32 := 0xF8
def flashCrPsizeMask : UInt32 := 0x300
def flashCrStrt : UInt32 := 0x10000
def flashCrLock : UInt32 := 0x80000000

/-- `BOOT_FLASH_TARGET_MAX_BUSY_POLLS`. -/
def bootFlashTargetMaxBusyPolls : ℕ := 10000000

/-! ### Accesses -/

inductive FlashRegister where
  | acr
  | keyr
  | sr
  | cr
  deriving DecidableEq, Repr

/-- What the code does to the world outside. -/
inductive FlashAccess where
  | read (register : FlashRegister)
  | write (register : FlashRegister) (value : UInt32)
  /-- `flash_write_u8`. -/
  | store (address : ℕ) (byte : UInt8)
  /-- `mrs` and `cpsid` of `interrupt_save_disable`. -/
  | saveDisable
  /-- `cpsie` of `interrupt_restore`. -/
  | enable
  deriving DecidableEq, Repr

/-- Whatever answers an access: a value, or nothing when the power goes. -/
structure FlashController (σ : Type) where
  respond : FlashAccess → σ → Option UInt32 × σ
  mem : σ → Mem

namespace FlashController

variable {σ : Type} (hw : FlashController σ)

def access (a : FlashAccess) : Prog σ BootFlashError UInt32 := fun s =>
  match hw.respond a s with
  | (some value, s') => .ret value s'
  | (none, s') => .cut s'

def read (register : FlashRegister) : Prog σ BootFlashError UInt32 := hw.access (.read register)

def write (register : FlashRegister) (value : UInt32) : Prog σ BootFlashError Unit := do
  let _ ← hw.access (.write register value)

/-! ### The backend -/

/-- The loop of `flash_wait_not_busy_raw`. -/
def pollBusy : ℕ → Prog σ BootFlashError Unit
  | 0 => do
    let _ ← hw.read .sr
  | timeout + 1 => do
    let sr ← hw.read .sr
    if sr &&& flashSrBsy ≠ 0 then
      pollBusy timeout
    else
      pure ()

/-- `flash_wait_not_busy_raw`. -/
def flashWaitNotBusyRaw : Prog σ BootFlashError Bool := do
  hw.pollBusy bootFlashTargetMaxBusyPolls
  let busy ← hw.read .sr
  if busy &&& flashSrBsy ≠ 0 then
    pure false
  else do
    let sr ← hw.read .sr
    pure (sr &&& flashSrErrorMask = 0)

/-- `flash_erase_sector_critical`. -/
def flashEraseSectorCritical (sectorId : ℕ) : Prog σ BootFlashError Bool := do
  let cr ← hw.read .cr
  let cr := cr &&& ~~~(flashCrPg ||| flashCrSer ||| flashCrMer ||| flashCrSnbMask |||
    flashCrPsizeMask)
  let cr := cr ||| (flashCrSer ||| UInt32.ofNat sectorId <<< 3)
  hw.write .cr cr
  hw.write .cr (cr ||| flashCrStrt)
  let ok ← hw.flashWaitNotBusyRaw
  let cr ← hw.read .cr
  hw.write .cr (cr &&& ~~~flashCrSer)
  pure ok

/-- `FLASH_CR_REG &= ~FLASH_CR_PG`. -/
def clearPg : Prog σ BootFlashError Unit := do
  let cr ← hw.read .cr
  hw.write .cr (cr &&& ~~~flashCrPg)

/-- The loop of `flash_program_critical`. -/
def programLoop : ℕ → List UInt8 → Prog σ BootFlashError Bool
  | _, [] => pure true
  | address, byte :: data => do
    let _ ← hw.access (.store address byte)
    let ok ← hw.flashWaitNotBusyRaw
    if ok = true then
      programLoop (address + 1) data
    else
      pure false

/-- `flash_program_critical`, where both ways out clear `PG`. -/
def flashProgramCritical (address : ℕ) (data : List UInt8) : Prog σ BootFlashError Bool := do
  let cr ← hw.read .cr
  let cr := cr &&& ~~~(flashCrSer ||| flashCrMer ||| flashCrSnbMask ||| flashCrPsizeMask)
  hw.write .cr (cr ||| flashCrPg)
  let ok ← hw.programLoop address data
  hw.clearPg
  pure ok

/-- `flash_data_cache_prepare`. -/
def flashDataCachePrepare : Prog σ BootFlashError UInt32 := do
  let acr ← hw.read .acr
  if acr &&& flashAcrDcen ≠ 0 then do
    hw.write .acr (acr &&& ~~~flashAcrDcen)
    pure acr
  else
    pure acr

/-- `flash_data_cache_restore`. -/
def flashDataCacheRestore (savedAcr : UInt32) : Prog σ BootFlashError Unit :=
  if savedAcr &&& flashAcrDcen ≠ 0 then do
    let acr ← hw.read .acr
    hw.write .acr (acr ||| flashAcrDcrst)
    let acr ← hw.read .acr
    hw.write .acr (acr &&& ~~~flashAcrDcrst)
    let acr ← hw.read .acr
    hw.write .acr (acr ||| flashAcrDcen)
  else
    pure ()

/-- `interrupt_restore`. -/
def interruptRestore (primask : UInt32) : Prog σ BootFlashError Unit :=
  if primask &&& 1 = 0 then do
    let _ ← hw.access .enable
  else
    pure ()

/-- `target_unlock`. -/
def targetUnlock : Prog σ BootFlashError Unit := do
  let cr ← hw.read .cr
  if cr &&& flashCrLock = 0 then
    pure ()
  else do
    hw.write .keyr flashKey1
    hw.write .keyr flashKey2
    let cr ← hw.read .cr
    .check (cr &&& flashCrLock = 0) .backend

/-- `target_lock`, with the status as a value. -/
def targetLock : Prog σ BootFlashError (Except BootFlashError Unit) := do
  let cr ← hw.read .cr
  hw.write .cr (cr ||| flashCrLock)
  let cr ← hw.read .cr
  pure (if cr &&& flashCrLock ≠ 0 then .ok () else .error .backend)

/-- What `target_erase_sector` and `target_program` do around their critical functions. -/
def guarded (critical : Prog σ BootFlashError Bool) : Prog σ BootFlashError Unit := do
  hw.targetUnlock
  hw.write .sr flashSrClearMask
  let savedAcr ← hw.flashDataCachePrepare
  let primask ← hw.access .saveDisable
  let ok ← critical
  hw.interruptRestore primask
  hw.flashDataCacheRestore savedAcr
  let lockStatus ← hw.targetLock
  .check (ok = true) .backend
  .ofExcept lockStatus

/-- `target_read`. The flash is read as memory. -/
def targetRead (address length : ℕ) : Prog σ BootFlashError (List UInt8) := do
  .check (targetRangeIsFlash address length = true) .backend
  if length = 0 then
    pure []
  else do
    let s ← .get
    pure (slice (hw.mem s) address length)

/-- `target_erase_sector`. -/
def targetEraseSector (sectorId : ℕ) : Prog σ BootFlashError Unit := do
  .check (sectorId < bootFlashSectors.length) .backend
  hw.guarded (hw.flashEraseSectorCritical sectorId)

/-- `target_program`. -/
def targetProgram (address : ℕ) (data : List UInt8) : Prog σ BootFlashError Unit := do
  .check (data.length ≠ 0 ∧ targetRangeIsFlash address data.length = true) .backend
  hw.guarded (hw.flashProgramCritical address data)

/-- `writable_ops`. -/
def ops : BootFlashOps σ where
  read := hw.targetRead
  eraseSector := hw.targetEraseSector
  program := hw.targetProgram

end FlashController

/-! ### What the code relies on -/

/-- The bits of `CR` that say what to erase. -/
def flashCrSelect : UInt32 := flashCrSer ||| flashCrMer

/-- The access writes to the register. -/
def FlashAccess.Writes (register : FlashRegister) : FlashAccess → Prop
  | .write register' _ => register' = register
  | _ => False

def FlashAccess.Stores : FlashAccess → Prop
  | .store _ _ => True
  | _ => False

/-- What the code relies on. The first five fields are what the controller knows: the register `CR`,
that an operation does not end, that an error is up, that the data cache is on, and that it may hold
what the flash held before. -/
structure FlashContract {σ : Type} (hw : FlashController σ) where
  cr : σ → UInt32
  busy : σ → Prop
  failed : σ → Prop
  cached : σ → Prop
  stale : σ → Prop
  read_cr {s s' : σ} {value : UInt32} (h : hw.respond (.read .cr) s = (some value, s')) : value = cr s
  read_busy {s s' : σ} {value : UInt32} (h : hw.respond (.read .sr) s = (some value, s'))
    (hbusy : busy s) : value &&& flashSrBsy ≠ 0 ∧ busy s'
  read_failed {s s' : σ} {value : UInt32} (h : hw.respond (.read .sr) s = (some value, s'))
    (hfailed : failed s) : value &&& flashSrErrorMask ≠ 0 ∧ failed s'
  select_keep {a : FlashAccess} {s s' : σ} {reply : UInt32} (h : hw.respond a s = (some reply, s'))
    (hcr : ¬ a.Writes .cr) : cr s' &&& flashCrSelect = cr s &&& flashCrSelect
  lock_keep {a : FlashAccess} {s s' : σ} {reply : UInt32} (h : hw.respond a s = (some reply, s'))
    (hcr : ¬ a.Writes .cr) (hkeyr : ¬ a.Writes .keyr) : cr s' &&& flashCrLock = cr s &&& flashCrLock
  select_write {s s' : σ} {value reply : UInt32}
    (h : hw.respond (.write .cr value) s = (some reply, s')) (hopen : cr s &&& flashCrLock = 0) :
    cr s' &&& flashCrSelect = value &&& flashCrSelect
  lock_write {s s' : σ} {value reply : UInt32}
    (h : hw.respond (.write .cr value) s = (some reply, s')) (hopen : cr s &&& flashCrLock = 0)
    (hlock : value &&& flashCrLock = 0) : cr s' &&& flashCrLock = 0
  /-- Without power the register is what it is after a reset. -/
  select_cut {a : FlashAccess} {s s' : σ} (h : hw.respond a s = (none, s')) :
    cr s' &&& flashCrSelect = 0
  read_acr {s s' : σ} {value : UInt32} (h : hw.respond (.read .acr) s = (some value, s')) :
    value &&& flashAcrDcen ≠ 0 ↔ cached s
  cached_keep {a : FlashAccess} {s s' : σ} {reply : UInt32} (h : hw.respond a s = (some reply, s'))
    (hacr : ¬ a.Writes .acr) : cached s' ↔ cached s
  cached_write {s s' : σ} {value reply : UInt32}
    (h : hw.respond (.write .acr value) s = (some reply, s')) :
    cached s' ↔ value &&& flashAcrDcen ≠ 0
  stale_keep {a : FlashAccess} {s s' : σ} {reply : UInt32} (h : hw.respond a s = (some reply, s'))
    (hcr : ¬ a.Writes .cr) (hstore : ¬ a.Stores) (hfresh : ¬ stale s) : ¬ stale s'
  stale_reset {s s' : σ} {value reply : UInt32}
    (h : hw.respond (.write .acr value) s = (some reply, s')) (hoff : ¬ cached s)
    (hreset : value &&& flashAcrDcrst ≠ 0) : ¬ stale s'
  mem_keep {a : FlashAccess} {s s' : σ} {reply : Option UInt32} (h : hw.respond a s = (reply, s'))
    (hcr : ¬ a.Writes .cr) (hacr : ¬ a.Writes .acr) (hstore : ¬ a.Stores) : hw.mem s' = hw.mem s
  mem_cache {s s' : σ} {value : UInt32} {reply : Option UInt32}
    (h : hw.respond (.write .acr value) s = (reply, s'))
    (hcache : value &&& flashAcrDcen = 0 ∨ ¬ stale s) : hw.mem s' = hw.mem s
  mem_write {s s' : σ} {value : UInt32} {reply : Option UInt32}
    (h : hw.respond (.write .cr value) s = (reply, s'))
    (hidle : value &&& flashCrSelect = 0 ∨ value &&& flashCrStrt = 0) : hw.mem s' = hw.mem s
  mem_erase {s s' : σ} {value : UInt32} {reply : Option UInt32} {sector : BootFlashSector}
    (h : hw.respond (.write .cr value) s = (reply, s')) (hser : value &&& flashCrSelect = flashCrSer)
    (hstrt : value &&& flashCrStrt ≠ 0)
    (hsector : bootFlashSectors[((value &&& flashCrSnbMask) >>> 3).toNat]? = some sector)
    (hoff : ¬ cached s) :
    hw.mem s' = eraseMem (hw.mem s) sector ∨
      (∃ damage : SectorDamage, hw.mem s' = damage.apply (hw.mem s) sector) ∧
        (reply = none ∨ busy s' ∨ failed s')
  mem_store {s s' : σ} {address : ℕ} {byte : UInt8} {reply : Option UInt32}
    (h : hw.respond (.store address byte) s = (reply, s')) (hoff : ¬ cached s) :
    hw.mem s' = programMem (hw.mem s) address [byte] ∨
      hw.mem s' = hw.mem s ∧ (reply = none ∨ busy s' ∨ failed s')

namespace FlashController

variable {σ : Type} {hw : FlashController σ} {s s' s₁ : σ} {m : Mem}

theorem wp_access {a : FlashAccess} {Q : UInt32 → σ → Prop} {E : BootFlashError → σ → Prop}
    {C : σ → Prop} (hQ : ∀ value s', hw.respond a s = (some value, s') → Q value s')
    (hC : ∀ s', hw.respond a s = (none, s') → C s') : wp (hw.access a) s Q E C := by
  rw [wp, access]
  cases h : hw.respond a s with
  | mk reply s' =>
    cases reply with
    | none => exact hC s' h
    | some value => exact hQ value s' h

/-! ### Accesses that leave the flash alone -/

/-- Nothing that matters has changed. -/
structure Same (c : FlashContract hw) (s s' : σ) : Prop where
  mem : hw.mem s' = hw.mem s
  select : c.cr s' &&& flashCrSelect = c.cr s &&& flashCrSelect
  lock : c.cr s' &&& flashCrLock = c.cr s &&& flashCrLock
  cached : c.cached s' ↔ c.cached s
  fresh : ¬ c.stale s → ¬ c.stale s'

/-- The power is gone, and the flash is as it was. -/
structure Off (c : FlashContract hw) (s s' : σ) : Prop where
  mem : hw.mem s' = hw.mem s
  select : c.cr s' &&& flashCrSelect = 0

variable {c : FlashContract hw}

theorem Same.refl (s : σ) : Same c s s := ⟨rfl, rfl, rfl, .rfl, id⟩

theorem Same.trans (h : Same c s s₁) (h' : Same c s₁ s') : Same c s s' :=
  ⟨h'.mem.trans h.mem, h'.select.trans h.select, h'.lock.trans h.lock, h'.cached.trans h.cached,
    fun hs => h'.fresh (h.fresh hs)⟩

theorem Same.off (h : Same c s s₁) (h' : Off c s₁ s') : Off c s s' :=
  ⟨h'.mem.trans h.mem, h'.select⟩

theorem wp_access_same {a : FlashAccess} (hcr : ¬ a.Writes .cr) (hkeyr : ¬ a.Writes .keyr)
    (hacr : ¬ a.Writes .acr) (hstore : ¬ a.Stores) :
    wp (hw.access a) s (fun _ s' => True ∧ Same c s s') (fun _ _ => False) fun s' => Off c s s' :=
  wp_access (fun _ _ h => ⟨trivial, c.mem_keep h hcr hacr hstore, c.select_keep h hcr,
    c.lock_keep h hcr hkeyr, c.cached_keep h hacr, c.stale_keep h hcr hstore⟩)
    fun _ h => ⟨c.mem_keep h hcr hacr hstore, c.select_cut h⟩

theorem wp_read {register : FlashRegister} :
    wp (hw.read register) s (fun _ s' => True ∧ Same c s s') (fun _ _ => False)
      fun s' => Off c s s' :=
  wp_access_same id id id id

theorem wp_read_cr :
    wp (hw.read .cr) s (fun value s' => value = c.cr s ∧ Same c s s') (fun _ _ => False)
      fun s' => Off c s s' := by
  have hvalue : wp (hw.read .cr) s (fun value _ => value = c.cr s) (fun _ _ => True) fun _ => True :=
    wp_access (fun _ _ h => c.read_cr h) fun _ _ => trivial
  exact (wp_read.and hvalue).mono (fun _ _ h => ⟨h.2, h.1.2⟩) (fun _ _ h => h.1) fun _ h => h.1

theorem wp_read_acr :
    wp (hw.read .acr) s (fun value s' => (value &&& flashAcrDcen ≠ 0 ↔ c.cached s) ∧ Same c s s')
      (fun _ _ => False) fun s' => Off c s s' := by
  have hvalue : wp (hw.read .acr) s (fun value _ => value &&& flashAcrDcen ≠ 0 ↔ c.cached s)
      (fun _ _ => True) fun _ => True :=
    wp_access (fun _ _ h => c.read_acr h) fun _ _ => trivial
  exact (wp_read.and hvalue).mono (fun _ _ h => ⟨h.2, h.1.2⟩) (fun _ _ h => h.1) fun _ h => h.1

theorem wp_write_sr {value : UInt32} :
    wp (hw.write .sr value) s (fun _ s' => True ∧ Same c s s') (fun _ _ => False)
      fun s' => Off c s s' := by
  rw [write, wp_bind]
  exact wp_access_same (fun h => by cases h) (fun h => by cases h) (fun h => by cases h) id

/-! ### Waiting -/

/-- Nothing that matters has changed, and what the status register is about to say stays. -/
structure Polled (c : FlashContract hw) (s s' : σ) : Prop where
  same : Same c s s'
  busy : c.busy s → c.busy s'
  failed : c.failed s → c.failed s'

theorem Polled.refl (s : σ) : Polled c s s := ⟨.refl s, id, id⟩

theorem Polled.trans (h : Polled c s s₁) (h' : Polled c s₁ s') : Polled c s s' :=
  ⟨h.same.trans h'.same, fun hs => h'.busy (h.busy hs), fun hs => h'.failed (h.failed hs)⟩

theorem wp_read_sr :
    wp (hw.read .sr) s
      (fun value s' => Polled c s s' ∧ (c.busy s → value &&& flashSrBsy ≠ 0) ∧
        (c.failed s → value &&& flashSrErrorMask ≠ 0)) (fun _ _ => False)
      fun s' => Off c s s' := by
  have hflags : wp (hw.read .sr) s
      (fun value s' => (c.busy s → value &&& flashSrBsy ≠ 0 ∧ c.busy s') ∧
        (c.failed s → value &&& flashSrErrorMask ≠ 0 ∧ c.failed s')) (fun _ _ => True)
      fun _ => True :=
    wp_access (fun _ _ h => ⟨c.read_busy h, c.read_failed h⟩) fun _ _ => trivial
  exact (wp_read.and hflags).mono
    (fun _ _ ⟨h, hb, hf⟩ => ⟨⟨h.2, fun hs => (hb hs).2, fun hs => (hf hs).2⟩,
      fun hs => (hb hs).1, fun hs => (hf hs).1⟩)
    (fun _ _ h => h.1) fun _ h => h.1

theorem pollBusy_polled (timeout : ℕ) :
    wp (hw.pollBusy timeout) s (fun _ s' => Polled c s s') (fun _ _ => False)
      fun s' => Off c s s' := by
  induction timeout generalizing s with
  | zero =>
    rw [pollBusy, wp_bind]
    exact wp_read_sr.mono (fun _ _ h => h.1) (fun _ _ h => h) fun _ h => h
  | succ timeout ih =>
    rw [pollBusy, wp_bind]
    refine wp_read_sr.mono (fun sr s₁ h₁ => ?_) (fun _ _ h => h) fun _ h => h
    split
    · exact ih.mono (fun _ _ h₂ => h₁.1.trans h₂) (fun _ _ h => h) fun _ h₂ => h₁.1.same.off h₂
    · exact h₁.1

/-- **Ready without an error** means that the operation was carried out. -/
theorem flashWaitNotBusyRaw_spec :
    wp hw.flashWaitNotBusyRaw s
      (fun ok s' => Same c s s' ∧ (ok = true → ¬ (c.busy s ∨ c.failed s))) (fun _ _ => False)
      fun s' => Off c s s' := by
  rw [flashWaitNotBusyRaw, wp_bind]
  refine (pollBusy_polled _).mono (fun _ s₁ h₁ => ?_) (fun _ _ h => h) fun _ h => h
  rw [wp_bind]
  refine wp_read_sr.mono (fun busy s₂ ⟨h₂, hbusy, _⟩ => ?_) (fun _ _ h => h)
    fun _ h₂ => h₁.same.off h₂
  have h₁₂ := h₁.trans h₂
  split
  case isTrue => exact ⟨h₁₂.same, fun hok => Bool.noConfusion hok⟩
  case isFalse hready =>
    rw [wp_bind]
    refine wp_read_sr.mono (fun sr s₃ ⟨h₃, _, hfailed⟩ => ?_) (fun _ _ h => h)
      fun _ h₃ => h₁₂.same.off h₃
    refine ⟨h₁₂.same.trans h₃.same, fun hok => ?_⟩
    rintro (hs | hs)
    · exact hready (hbusy (h₁.busy hs))
    · exact hfailed (h₁₂.failed hs) (of_decide_eq_true hok)

/-! ### Around the critical functions -/

/-- The flash is at rest: it holds `m`, and nothing is selected. -/
structure Idle (c : FlashContract hw) (m : Mem) (s : σ) : Prop where
  mem : hw.mem s = m
  select : c.cr s &&& flashCrSelect = 0

/-- The flash is at rest and unlocked. -/
structure Open (c : FlashContract hw) (m : Mem) (s : σ) : Prop where
  idle : Idle c m s
  lock : c.cr s &&& flashCrLock = 0

/-- And the data cache is off. -/
structure Bare (c : FlashContract hw) (m : Mem) (s : σ) : Prop extends Open c m s where
  off : ¬ c.cached s

theorem Same.idle (h : Same c s s') (hs : Idle c m s) : Idle c m s' :=
  ⟨h.mem.trans hs.mem, h.select.trans hs.select⟩

theorem Same.open (h : Same c s s') (hs : Open c m s) : Open c m s' :=
  ⟨h.idle hs.idle, h.lock.trans hs.lock⟩

theorem Same.bare (h : Same c s s') (hs : Bare c m s) : Bare c m s' :=
  ⟨h.open hs.toOpen, fun hon => hs.off (h.cached.mp hon)⟩

theorem Off.idle (h : Off c s s') (hs : hw.mem s = m) : Idle c m s' := ⟨h.mem.trans hs, h.select⟩

theorem wp_write_keyr {value : UInt32} (hs : Idle c m s) :
    wp (hw.write .keyr value) s (fun _ s' => Idle c m s') (fun _ _ => False)
      fun s' => Idle c m s' := by
  rw [write, wp_bind]
  have hcr : ¬ (FlashAccess.write .keyr value).Writes .cr := fun h => by cases h
  have hacr : ¬ (FlashAccess.write .keyr value).Writes .acr := fun h => by cases h
  refine wp_access (fun _ s' h => ?_) fun s' h => ?_
  · exact ⟨(c.mem_keep h hcr hacr id).trans hs.mem, (c.select_keep h hcr).trans hs.select⟩
  · exact ⟨(c.mem_keep h hcr hacr id).trans hs.mem, c.select_cut h⟩

theorem targetUnlock_spec (hs : Idle c m s) :
    wp hw.targetUnlock s (fun _ s' => Open c m s') (fun e s' => e = .backend ∧ Idle c m s')
      fun s' => Idle c m s' := by
  rw [targetUnlock, wp_bind]
  refine wp_read_cr.mono ?_ (fun _ _ h => h.elim) fun _ h => h.idle hs.mem
  rintro cr s₁ ⟨hcr, h₁⟩
  have hs₁ := h₁.idle hs
  split
  case isTrue hopen =>
    rw [hcr, ← h₁.lock] at hopen
    exact ⟨hs₁, hopen⟩
  case isFalse =>
    rw [wp_bind]
    refine (wp_write_keyr hs₁).mono (fun _ s₂ hs₂ => ?_) (fun _ _ h => h.elim) fun _ h => h
    rw [wp_bind]
    refine (wp_write_keyr hs₂).mono (fun _ s₃ hs₃ => ?_) (fun _ _ h => h.elim) fun _ h => h
    rw [wp_bind]
    refine wp_read_cr.mono ?_ (fun _ _ h => h.elim) fun _ h => h.idle hs₃.mem
    rintro cr' s₄ ⟨hcr', h₄⟩
    rw [wp_check]
    refine ⟨fun hopen => ⟨h₄.idle hs₃, ?_⟩, fun _ => ⟨rfl, h₄.idle hs₃⟩⟩
    rw [h₄.lock, ← hcr']
    exact hopen

/-- A word with some bits cleared and others set. -/
theorem masked_and (a b set mask : UInt32) :
    ((a &&& b) ||| set) &&& mask = (a &&& (b &&& mask)) ||| (set &&& mask) := by
  apply UInt32.toBitVec_inj.mp
  ext i hi
  simp only [UInt32.toBitVec_and, UInt32.toBitVec_or, BitVec.getElem_and, BitVec.getElem_or,
    Bool.and_or_distrib_right, Bool.and_assoc]

theorem masked_or (a set mask : UInt32) : (a ||| set) &&& mask = (a &&& mask) ||| (set &&& mask) := by
  apply UInt32.toBitVec_inj.mp
  ext i hi
  simp only [UInt32.toBitVec_and, UInt32.toBitVec_or, BitVec.getElem_and, BitVec.getElem_or,
    Bool.and_or_distrib_right]

/-- A write of `CR` that does not select a sector. -/
theorem wp_write_cr {value : UInt32} (hs : hw.mem s = m) (hopen : c.cr s &&& flashCrLock = 0)
    (hselect : value &&& flashCrSelect = 0) :
    wp (hw.write .cr value) s
      (fun _ s' => Idle c m s' ∧ (value &&& flashCrLock = 0 → c.cr s' &&& flashCrLock = 0) ∧
        (c.cached s' → c.cached s))
      (fun _ _ => False) fun s' => Idle c m s' := by
  rw [write, wp_bind]
  refine wp_access (fun _ s' h => ?_) fun s' h => ?_
  · exact ⟨⟨(c.mem_write h (.inl hselect)).trans hs, (c.select_write h hopen).trans hselect⟩,
      c.lock_write h hopen, (c.cached_keep h fun hacr => by cases hacr).mp⟩
  · exact ⟨(c.mem_write h (.inl hselect)).trans hs, c.select_cut h⟩

/-- The flash is at rest again, whether it could be locked or not. -/
theorem targetLock_spec (hs : Open c m s) :
    wp hw.targetLock s (fun status s' => Idle c m s' ∧ ∀ e, status = .error e → e = .backend)
      (fun _ _ => False) fun s' => Idle c m s' := by
  rw [targetLock, wp_bind]
  refine wp_read_cr.mono (fun cr s₁ ⟨hcr, h₁⟩ => ?_) (fun _ _ h => h.elim)
    fun _ h => h.idle hs.idle.mem
  have hs₁ := h₁.open hs
  have hselect : (cr ||| flashCrLock) &&& flashCrSelect = 0 := by
    rw [masked_or, hcr, hs.idle.select]
    rfl
  rw [wp_bind]
  refine (wp_write_cr hs₁.idle.mem hs₁.lock hselect).mono (fun _ s₂ h₂ => ?_)
    (fun _ _ h => h.elim) fun _ h => h
  rw [wp_bind]
  refine wp_read.mono (fun cr' s₃ h₃ => ⟨h₃.2.idle h₂.1, fun e he => ?_⟩) (fun _ _ h => h.elim)
    fun _ h => h.idle h₂.1.mem
  split at he
  · cases he
  · exact (Except.error.inj he).symm

/-- A write of `ACR` that does not switch the data cache on, or finds it empty. -/
theorem wp_write_acr {value : UInt32} (hs : Open c m s)
    (hcache : value &&& flashAcrDcen = 0 ∨ ¬ c.stale s) :
    wp (hw.write .acr value) s
      (fun _ s' => Open c m s' ∧ (c.cached s' ↔ value &&& flashAcrDcen ≠ 0) ∧
        (¬ c.stale s ∨ ¬ c.cached s ∧ value &&& flashAcrDcrst ≠ 0 → ¬ c.stale s'))
      (fun _ _ => False) fun s' => Idle c m s' := by
  have hcr : ¬ (FlashAccess.write .acr value).Writes .cr := fun h => by cases h
  have hkeyr : ¬ (FlashAccess.write .acr value).Writes .keyr := fun h => by cases h
  rw [write, wp_bind]
  refine wp_access (fun _ s' h => ?_) fun s' h => ?_
  · refine ⟨⟨⟨(c.mem_cache h hcache).trans hs.idle.mem,
      (c.select_keep h hcr).trans hs.idle.select⟩, (c.lock_keep h hcr hkeyr).trans hs.lock⟩,
      c.cached_write h, ?_⟩
    rintro (hfresh | ⟨hoff, hreset⟩)
    · exact c.stale_keep h hcr id hfresh
    · exact c.stale_reset h hoff hreset
  · exact ⟨(c.mem_cache h hcache).trans hs.idle.mem, c.select_cut h⟩

/-- The data cache is off afterwards. -/
theorem flashDataCachePrepare_spec (hs : Open c m s) :
    wp hw.flashDataCachePrepare s (fun _ s' => Bare c m s') (fun _ _ => False)
      fun s' => Idle c m s' := by
  rw [flashDataCachePrepare, wp_bind]
  refine wp_read_acr.mono ?_ (fun _ _ h => h.elim) fun _ h => h.idle hs.idle.mem
  rintro acr s₁ ⟨hcached, h₁⟩
  have hs₁ := h₁.open hs
  split
  case isTrue =>
    have hoff : (acr &&& ~~~flashAcrDcen) &&& flashAcrDcen = 0 := by
      rw [UInt32.and_assoc]
      exact UInt32.and_zero
    rw [wp_bind]
    refine (wp_write_acr hs₁ (.inl hoff)).mono (fun _ s₂ h₂ => ?_) (fun _ _ h => h) fun _ h => h
    exact ⟨h₂.1, fun hon => h₂.2.1.mp hon hoff⟩
  case isFalse hoff => exact ⟨hs₁, fun hon => hoff (hcached.mpr (h₁.cached.mp hon))⟩

/-- The data cache is emptied before it is switched on, so the flash reads as it is. -/
theorem flashDataCacheRestore_spec (savedAcr : UInt32) (hs : Bare c m s) :
    wp (hw.flashDataCacheRestore savedAcr) s (fun _ s' => Open c m s') (fun _ _ => False)
      fun s' => Idle c m s' := by
  rw [flashDataCacheRestore]
  split
  case isFalse => exact hs.toOpen
  case isTrue =>
    rw [wp_bind]
    refine wp_read_acr.mono ?_ (fun _ _ h => h.elim) fun _ h => h.idle hs.idle.mem
    rintro acr s₁ ⟨hcached, h₁⟩
    have hs₁ := h₁.bare hs
    have hoff : (acr ||| flashAcrDcrst) &&& flashAcrDcen = 0 := by
      rw [masked_or, not_not.mp fun hon => hs.off (hcached.mp hon)]
      rfl
    have hreset : (acr ||| flashAcrDcrst) &&& flashAcrDcrst ≠ 0 := by
      rw [masked_or]
      intro h
      exact absurd (UInt32.or_eq_zero_iff.mp h).2 (by decide)
    rw [wp_bind]
    refine (wp_write_acr hs₁.toOpen (.inl hoff)).mono ?_ (fun _ _ h => h.elim) fun _ h => h
    rintro _ s₂ ⟨hs₂, -, hempty₂⟩
    rw [wp_bind]
    refine wp_read.mono ?_ (fun _ _ h => h.elim) fun _ h => h.idle hs₂.idle.mem
    rintro acr' s₃ ⟨-, h₃⟩
    have hempty₃ := h₃.fresh (hempty₂ (.inr ⟨hs₁.off, hreset⟩))
    rw [wp_bind]
    refine (wp_write_acr (h₃.open hs₂) (.inr hempty₃)).mono ?_ (fun _ _ h => h.elim) fun _ h => h
    rintro _ s₄ ⟨hs₄, -, hempty₄⟩
    rw [wp_bind]
    refine wp_read.mono ?_ (fun _ _ h => h.elim) fun _ h => h.idle hs₄.idle.mem
    rintro acr'' s₅ ⟨-, h₅⟩
    exact (wp_write_acr (h₅.open hs₄) (.inr (h₅.fresh (hempty₄ (.inl hempty₃))))).mono
      (fun _ _ h => h.1) (fun _ _ h => h) fun _ h => h

theorem interruptRestore_same (primask : UInt32) :
    wp (hw.interruptRestore primask) s (fun _ s' => True ∧ Same c s s') (fun _ _ => False)
      fun s' => Off c s s' := by
  rw [interruptRestore]
  split
  · rw [wp_bind]
    exact wp_access_same id id id id
  · exact ⟨trivial, .refl s⟩

/-- **A call**, given what its critical function does. -/
theorem guarded_spec {critical : Prog σ BootFlashError Bool} {full : Mem} {part : Mem → Prop}
    (hcritical : ∀ s, Bare c m s → wp critical s
      (fun ok s' => ∃ m', Bare c m' s' ∧ if ok = true then m' = full else part m')
      (fun _ _ => False) fun s' => ∃ m', Idle c m' s' ∧ part m')
    (hm : part m) (hfull : part full) (hs : Idle c m s) :
    wp (hw.guarded critical) s (fun _ s' => Idle c full s')
      (fun e s' => e = .backend ∧ ∃ m', Idle c m' s' ∧ part m')
      fun s' => ∃ m', Idle c m' s' ∧ part m' := by
  rw [guarded, wp_bind]
  refine (targetUnlock_spec hs).mono (fun _ s₁ h₁ => ?_) (fun _ _ h => ⟨h.1, m, h.2, hm⟩)
    fun _ h => ⟨m, h, hm⟩
  rw [wp_bind]
  refine (wp_write_sr (c := c)).mono (fun _ s₂ h₂ => ?_)
    (fun _ _ h => h.elim) fun _ h => ⟨m, h.idle h₁.idle.mem, hm⟩
  have ho₂ := h₂.2.open h₁
  rw [wp_bind]
  refine (flashDataCachePrepare_spec ho₂).mono (fun savedAcr s₃ ho₃ => ?_) (fun _ _ h => h.elim)
    fun _ h => ⟨m, h, hm⟩
  rw [wp_bind]
  refine (wp_access_same (c := c) id id id id).mono (fun primask s₄ h₄ => ?_) (fun _ _ h => h.elim)
    fun _ h => ⟨m, h.idle ho₃.idle.mem, hm⟩
  rw [wp_bind]
  refine (hcritical s₄ (h₄.2.bare ho₃)).mono ?_ (fun _ _ h => h.elim) fun _ h => h
  rintro ok s₅ ⟨m', ho₅, hok⟩
  have hpart : part m' := by
    cases ok with
    | true => exact (show m' = full from hok) ▸ hfull
    | false => exact hok
  rw [wp_bind]
  refine (interruptRestore_same _).mono (fun _ s₆ h₆ => ?_) (fun _ _ h => h.elim)
    fun _ h => ⟨m', h.idle ho₅.idle.mem, hpart⟩
  rw [wp_bind]
  refine (flashDataCacheRestore_spec _ (h₆.2.bare ho₅)).mono (fun _ s₇ ho₇ => ?_)
    (fun _ _ h => h.elim) fun _ h => ⟨m', h, hpart⟩
  rw [wp_bind]
  refine (targetLock_spec ho₇).mono (fun lockStatus s₈ h₈ => ?_) (fun _ _ h => h.elim)
    fun _ h => ⟨m', h, hpart⟩
  rw [wp_bind, wp_check]
  refine ⟨fun htrue => ?_, fun _ => ⟨rfl, m', h₈.1, hpart⟩⟩
  rw [if_pos htrue] at hok
  rw [wp_ofExcept]
  exact ⟨fun _ _ => hok ▸ h₈.1, fun e he => ⟨h₈.2 e he, m', h₈.1, hpart⟩⟩

/-! ### Programming -/

theorem programMem_cons (m : Mem) (address : ℕ) (byte : UInt8) (data : List UInt8) :
    programMem (programMem m address [byte]) (address + 1) data =
      programMem m address (byte :: data) := by
  funext x
  have hone : programMem m address [byte] x = if x = address then m x &&& byte else m x := by
    rw [programMem, List.length_singleton]
    by_cases hx : x = address
    · rw [if_pos ⟨by omega, by omega⟩, if_pos hx, hx, Nat.sub_self]
      rfl
    · rw [if_neg (by omega), if_neg hx]
  rw [programMem, hone, programMem, List.length_cons]
  by_cases hx : x = address
  · rw [if_neg (by omega), if_pos hx, if_pos ⟨by omega, by omega⟩, hx, Nat.sub_self]
    rfl
  · rw [if_neg hx]
    by_cases hin : address + 1 ≤ x ∧ x < address + 1 + data.length
    · have hrest : x - address = x - (address + 1) + 1 := by omega
      rw [if_pos hin, if_pos ⟨by omega, by omega⟩, hrest]
      rfl
    · rw [if_neg hin, if_neg (by omega)]

/-- Programming got as far as some byte. -/
def Programmed (m : Mem) (address : ℕ) (data : List UInt8) (m' : Mem) : Prop :=
  ∃ n, m' = programMem m address (data.take n)

theorem Programmed.none (m : Mem) (address : ℕ) (data : List UInt8) :
    Programmed m address data m :=
  ⟨0, by rw [List.take_zero, programMem_nil]⟩

theorem Programmed.all (m : Mem) (address : ℕ) (data : List UInt8) :
    Programmed m address data (programMem m address data) :=
  ⟨data.length, by rw [List.take_length]⟩

theorem Programmed.cons {address : ℕ} {byte : UInt8} {data : List UInt8} {m' : Mem}
    (h : Programmed (programMem m address [byte]) (address + 1) data m') :
    Programmed m address (byte :: data) m' := by
  obtain ⟨n, rfl⟩ := h
  exact ⟨n + 1, by rw [List.take_succ_cons, programMem_cons]⟩

/-- One byte. -/
theorem store_spec {address : ℕ} {byte : UInt8} (hs : Bare c m s) :
    wp (hw.access (.store address byte)) s
      (fun _ s' => Bare c (programMem m address [byte]) s' ∨ Bare c m s' ∧ (c.busy s' ∨ c.failed s'))
      (fun _ _ => False)
      fun s' => Idle c (programMem m address [byte]) s' ∨ Idle c m s' := by
  refine wp_access (fun value s' h => ?_) fun s' h => ?_
  · have hselect := (c.select_keep h id).trans hs.idle.select
    have hlock := (c.lock_keep h id id).trans hs.lock
    have hoff : ¬ c.cached s' := fun hon => hs.off ((c.cached_keep h id).mp hon)
    rcases c.mem_store h hs.off with hmem | ⟨hmem, hflag⟩
    · rw [hs.idle.mem] at hmem
      exact .inl ⟨⟨⟨hmem, hselect⟩, hlock⟩, hoff⟩
    · rw [hs.idle.mem] at hmem
      exact .inr ⟨⟨⟨⟨hmem, hselect⟩, hlock⟩, hoff⟩, hflag.resolve_left fun hn => by cases hn⟩
  · have hselect := c.select_cut h
    rcases c.mem_store h hs.off with hmem | ⟨hmem, -⟩
    · rw [hs.idle.mem] at hmem
      exact .inl ⟨hmem, hselect⟩
    · rw [hs.idle.mem] at hmem
      exact .inr ⟨hmem, hselect⟩

/-- **The loop** programs the bytes in order, and stops at the first one that is not programmed. -/
theorem programLoop_spec {address : ℕ} {data : List UInt8} (hs : Bare c m s) :
    wp (hw.programLoop address data) s
      (fun ok s' => ∃ m', Bare c m' s' ∧
        if ok = true then m' = programMem m address data else Programmed m address data m')
      (fun _ _ => False) fun s' => ∃ m', Idle c m' s' ∧ Programmed m address data m' := by
  induction data generalizing m s address with
  | nil => exact ⟨m, hs, (programMem_nil m address).symm⟩
  | cons byte data ih =>
    have hone : Programmed m address (byte :: data) (programMem m address [byte]) :=
      .cons (.none _ _ _)
    rw [programLoop, wp_bind]
    refine (store_spec hs).mono (fun _ s₁ h₁ => ?_) (fun _ _ h => h) fun _ h => ?_
    · rw [wp_bind]
      refine (flashWaitNotBusyRaw_spec (c := c)).mono (fun ok s₂ ⟨h₂, hok⟩ => ?_) (fun _ _ h => h)
        fun _ h₂ => ?_
      · split
        case isTrue htrue =>
          have hs₂ := h₂.bare (h₁.resolve_right fun h => hok htrue h.2)
          refine (ih hs₂).mono ?_ (fun _ _ h => h) fun _ h => ?_
          · rintro ok' s₃ ⟨m', hs₃, hm'⟩
            refine ⟨m', hs₃, ?_⟩
            split at hm'
            case isTrue htrue' => rw [if_pos htrue', hm', programMem_cons]
            case isFalse hfalse' =>
              rw [if_neg hfalse']
              exact hm'.cons
          · obtain ⟨m', hs', hm'⟩ := h
            exact ⟨m', hs', hm'.cons⟩
        case isFalse =>
          rcases h₁ with h₁ | ⟨h₁, -⟩
          · exact ⟨_, h₂.bare h₁, hone⟩
          · exact ⟨m, h₂.bare h₁, .none _ _ _⟩
      · rcases h₁ with h₁ | ⟨h₁, -⟩
        · exact ⟨_, h₂.idle h₁.idle.mem, hone⟩
        · exact ⟨m, h₂.idle h₁.idle.mem, .none _ _ _⟩
    · rcases h with h | h
      · exact ⟨_, h, hone⟩
      · exact ⟨m, h, .none _ _ _⟩

theorem flashProgramCritical_spec {address : ℕ} {data : List UInt8} (hs : Bare c m s) :
    wp (hw.flashProgramCritical address data) s
      (fun ok s' => ∃ m', Bare c m' s' ∧
        if ok = true then m' = programMem m address data else Programmed m address data m')
      (fun _ _ => False) fun s' => ∃ m', Idle c m' s' ∧ Programmed m address data m' := by
  have hnone : Programmed m address data m := .none _ _ _
  rw [flashProgramCritical, wp_bind]
  refine wp_read_cr.mono (fun cr s₁ ⟨hcr, h₁⟩ => ?_) (fun _ _ h => h)
    fun _ h => ⟨m, h.idle hs.idle.mem, hnone⟩
  have hs₁ := h₁.bare hs
  rw [wp_bind]
  refine (wp_write_cr hs₁.idle.mem hs₁.lock ?_).mono (fun _ s₂ h₂ => ?_) (fun _ _ h => h)
    fun _ h => ⟨m, h, hnone⟩
  · rw [masked_and]
    show cr &&& 0 ||| 0 = 0
    rw [UInt32.and_zero, UInt32.or_zero]
  have hs₂ : Bare c m s₂ := by
    refine ⟨⟨h₂.1, h₂.2.1 ?_⟩, fun hon => hs₁.off (h₂.2.2 hon)⟩
    rw [masked_and, hcr]
    show c.cr s &&& flashCrLock ||| 0 = 0
    rw [hs.lock, UInt32.or_zero]
  rw [wp_bind]
  refine (programLoop_spec hs₂).mono ?_ (fun _ _ h => h) fun _ h => h
  rintro ok s₃ ⟨m', hs₃, hm'⟩
  have hpart : Programmed m address data m' := by
    split at hm'
    · exact hm' ▸ .all _ _ _
    · exact hm'
  rw [wp_bind, clearPg, wp_bind]
  refine wp_read_cr.mono (fun cr' s₄ ⟨hcr', h₄⟩ => ?_) (fun _ _ h => h)
    fun _ h => ⟨m', h.idle hs₃.idle.mem, hpart⟩
  have hs₄ := h₄.bare hs₃
  refine (wp_write_cr hs₄.idle.mem hs₄.lock ?_).mono (fun _ s₅ h₅ => ?_) (fun _ _ h => h)
    fun _ h => ⟨m', h, hpart⟩
  · rw [UInt32.and_assoc, hcr']
    exact hs₃.idle.select
  · refine ⟨m', ⟨⟨h₅.1, h₅.2.1 ?_⟩, fun hon => hs₄.off (h₅.2.2 hon)⟩, hm'⟩
    rw [UInt32.and_assoc, hcr']
    exact hs₃.lock

/-! ### Erasing -/

/-- An erase got somewhere, or has not begun. -/
def Erased (m : Mem) (sector : BootFlashSector) (m' : Mem) : Prop :=
  ∃ damage : SectorDamage, m' = damage.apply m sector

theorem eraseMem_apply (m : Mem) (sector : BootFlashSector) (d : SectorDamage) :
    eraseMem (d.apply m sector) sector = eraseMem m sector := by
  funext x
  by_cases h : sector.base ≤ x ∧ x < sector.endAddr
  · rw [eraseMem_of_mem h.1 h.2, eraseMem_of_mem h.1 h.2]
  · rw [eraseMem_of_not_mem h, eraseMem_of_not_mem h, d.apply_of_not_mem h]

theorem Erased.refl (m : Mem) (sector : BootFlashSector) : Erased m sector m := ⟨.unchanged, rfl⟩

theorem Erased.full (m : Mem) (sector : BootFlashSector) : Erased m sector (eraseMem m sector) :=
  ⟨.erased, rfl⟩

/-- An erase that is started again. -/
theorem Erased.apply {sector : BootFlashSector} {m' : Mem} (h : Erased m sector m')
    (d' : SectorDamage) : Erased m sector (d'.apply m' sector) := by
  obtain ⟨d, rfl⟩ := h
  cases d' with
  | unchanged => exact ⟨d, rfl⟩
  | erased => exact ⟨.erased, eraseMem_apply m sector d⟩
  | torn contents hc =>
    refine ⟨.torn contents hc, funext fun x => ?_⟩
    by_cases hx : sector.base ≤ x ∧ x < sector.endAddr
    · exact (if_pos hx).trans (if_pos hx).symm
    · exact (if_neg hx).trans ((d.apply_of_not_mem hx).trans (if_neg hx).symm)

theorem Erased.eraseMem_eq {sector : BootFlashSector} {m' : Mem} (h : Erased m sector m') :
    eraseMem m' sector = eraseMem m sector := by
  obtain ⟨d, rfl⟩ := h
  exact eraseMem_apply m sector d

/-- A sector is selected, the flash is unlocked, and the data cache is off. -/
structure Erasing (c : FlashContract hw) (m : Mem) (s : σ) : Prop where
  mem : hw.mem s = m
  select : c.cr s &&& flashCrSelect = flashCrSer
  lock : c.cr s &&& flashCrLock = 0
  off : ¬ c.cached s

theorem Same.erasing (h : Same c s s') (hs : Erasing c m s) : Erasing c m s' :=
  ⟨h.mem.trans hs.mem, h.select.trans hs.select, h.lock.trans hs.lock,
    fun hon => hs.off (h.cached.mp hon)⟩

/-- A write of `CR` that selects a sector. -/
theorem wp_write_erase {value : UInt32} {sector : BootFlashSector} {m' : Mem}
    (hs : hw.mem s = m') (hm' : Erased m sector m') (hopen : c.cr s &&& flashCrLock = 0)
    (hser : value &&& flashCrSelect = flashCrSer) (hlock : value &&& flashCrLock = 0)
    (hsector : bootFlashSectors[((value &&& flashCrSnbMask) >>> 3).toNat]? = some sector)
    (hoff : ¬ c.cached s) :
    wp (hw.write .cr value) s
      (fun _ s' => ∃ m'', Erasing c m'' s' ∧ Erased m sector m'' ∧
        (value &&& flashCrStrt ≠ 0 → m'' = eraseMem m sector ∨ c.busy s' ∨ c.failed s'))
      (fun _ _ => False) fun s' => ∃ m'', Idle c m'' s' ∧ Erased m sector m'' := by
  have hmem {s' : σ} {reply : Option UInt32} (h : hw.respond (.write .cr value) s = (reply, s')) :
      Erased m sector (hw.mem s') ∧ (value &&& flashCrStrt ≠ 0 →
        hw.mem s' = eraseMem m sector ∨ reply = none ∨ c.busy s' ∨ c.failed s') := by
    by_cases hstrt : value &&& flashCrStrt = 0
    · rw [c.mem_write h (.inr hstrt), hs]
      exact ⟨hm', fun hn => absurd hstrt hn⟩
    · rcases c.mem_erase h hser hstrt hsector hoff with hfull | ⟨⟨d, hd⟩, hflag⟩
      · rw [hs, hm'.eraseMem_eq] at hfull
        rw [hfull]
        exact ⟨.full m sector, fun _ => .inl rfl⟩
      · rw [hs] at hd
        rw [hd]
        exact ⟨hm'.apply d, fun _ => .inr hflag⟩
  rw [write, wp_bind]
  refine wp_access (fun _ s' h => ?_) fun s' h => ?_
  · have hoff' : ¬ c.cached s' :=
      fun hon => hoff ((c.cached_keep h fun hacr => by cases hacr).mp hon)
    refine ⟨_, ⟨rfl, (c.select_write h hopen).trans hser, c.lock_write h hopen hlock, hoff'⟩,
      (hmem h).1, fun hstrt => ((hmem h).2 hstrt).imp_right fun hflag => ?_⟩
    exact hflag.resolve_left fun hn => by cases hn
  · exact ⟨_, ⟨rfl, c.select_cut h⟩, (hmem h).1⟩

/-- The bits that `flash_erase_sector_critical` sets. -/
theorem sectorBits {sectorId : ℕ} (h : sectorId < 12) :
    (flashCrSer ||| UInt32.ofNat sectorId <<< 3) &&& flashCrSelect = flashCrSer ∧
      (flashCrSer ||| UInt32.ofNat sectorId <<< 3) &&& flashCrLock = 0 ∧
      (((flashCrSer ||| UInt32.ofNat sectorId <<< 3) &&& flashCrSnbMask) >>> 3).toNat = sectorId := by
  revert sectorId
  decide

theorem flashEraseSectorCritical_spec {sectorId : ℕ} {sector : BootFlashSector}
    (hsector : bootFlashSectors[sectorId]? = some sector) (hs : Bare c m s) :
    wp (hw.flashEraseSectorCritical sectorId) s
      (fun ok s' => ∃ m', Bare c m' s' ∧
        if ok = true then m' = eraseMem m sector else Erased m sector m')
      (fun _ _ => False) fun s' => ∃ m', Idle c m' s' ∧ Erased m sector m' := by
  obtain ⟨hid, -⟩ := List.getElem?_eq_some_iff.mp hsector
  obtain ⟨hser, hlock, hsnb⟩ := sectorBits hid
  have hnone := Erased.refl m sector
  rw [flashEraseSectorCritical, wp_bind]
  refine wp_read_cr.mono (fun cr s₁ ⟨hcr, h₁⟩ => ?_) (fun _ _ h => h)
    fun _ h => ⟨m, h.idle hs.idle.mem, hnone⟩
  have hs₁ := h₁.bare hs
  dsimp only
  generalize hvalue : cr &&& ~~~(flashCrPg ||| flashCrSer ||| flashCrMer ||| flashCrSnbMask |||
    flashCrPsizeMask) ||| (flashCrSer ||| UInt32.ofNat sectorId <<< 3) = value
  have hvalueSer : value &&& flashCrSelect = flashCrSer := by
    rw [← hvalue, masked_and, hser]
    show cr &&& 0 ||| flashCrSer = flashCrSer
    rw [UInt32.and_zero, UInt32.zero_or]
  have hvalueLock : value &&& flashCrLock = 0 := by
    rw [← hvalue, masked_and, hlock, hcr, UInt32.or_zero]
    exact hs.lock
  have hvalueSector : bootFlashSectors[((value &&& flashCrSnbMask) >>> 3).toNat]? = some sector := by
    have hmask : value &&& flashCrSnbMask =
        (flashCrSer ||| UInt32.ofNat sectorId <<< 3) &&& flashCrSnbMask := by
      rw [← hvalue, masked_and]
      show cr &&& 0 ||| _ = _
      rw [UInt32.and_zero, UInt32.zero_or]
    rw [hmask, hsnb]
    exact hsector
  have hstart (mask : UInt32) (hmask : flashCrStrt &&& mask = 0) :
      (value ||| flashCrStrt) &&& mask = value &&& mask := by
    rw [masked_or, hmask, UInt32.or_zero]
  have hstrt : (value ||| flashCrStrt) &&& flashCrStrt ≠ 0 := by
    rw [masked_or]
    intro h
    exact absurd (UInt32.or_eq_zero_iff.mp h).2 (by decide)
  rw [wp_bind]
  refine (wp_write_erase hs₁.idle.mem hnone hs₁.lock hvalueSer hvalueLock hvalueSector
    hs₁.off).mono ?_ (fun _ _ h => h) fun _ h => h
  rintro _ s₂ ⟨m₂, hs₂, hm₂, -⟩
  rw [wp_bind]
  refine (wp_write_erase hs₂.mem hm₂ hs₂.lock ((hstart _ rfl).trans hvalueSer)
    ((hstart _ rfl).trans hvalueLock) (by rw [hstart _ rfl]; exact hvalueSector) hs₂.off).mono
    ?_ (fun _ _ h => h) fun _ h => h
  rintro _ s₃ ⟨m₃, hs₃, hm₃, hdone⟩
  rw [wp_bind]
  refine (flashWaitNotBusyRaw_spec (c := c)).mono (fun ok s₄ ⟨h₄, hok⟩ => ?_) (fun _ _ h => h)
    fun _ h => ⟨m₃, h.idle hs₃.mem, hm₃⟩
  have hs₄ := h₄.erasing hs₃
  rw [wp_bind]
  refine wp_read_cr.mono (fun cr' s₅ ⟨hcr', h₅⟩ => ?_) (fun _ _ h => h)
    fun _ h => ⟨m₃, h.idle hs₄.mem, hm₃⟩
  have hs₅ := h₅.erasing hs₄
  have hclear : (cr' &&& ~~~flashCrSer) &&& flashCrSelect = 0 := by
    have hmer : ~~~flashCrSer &&& flashCrSelect = flashCrSelect &&& flashCrMer := by decide
    rw [UInt32.and_assoc, hmer, ← UInt32.and_assoc, hcr', hs₄.select]
    rfl
  rw [wp_bind]
  refine (wp_write_cr hs₅.mem hs₅.lock hclear).mono (fun _ s₆ h₆ => ?_) (fun _ _ h => h)
    fun _ h => ⟨m₃, h, hm₃⟩
  refine ⟨m₃, ⟨⟨h₆.1, h₆.2.1 ?_⟩, fun hon => hs₅.off (h₆.2.2 hon)⟩, ?_⟩
  · rw [UInt32.and_assoc, hcr']
    exact hs₄.lock
  · split
    case isTrue htrue => exact (hdone hstrt).resolve_right (hok htrue)
    case isFalse => exact hm₃

/-! ### Registers and device -/

/-- The flash at rest, beside the part of the device that is not its script. -/
def Rests (c : FlashContract hw) (s : σ) (v : Mem × List FlashOp) : Prop := Idle c v.1 s

/-- A device. -/
def deviceOf (script : List Verdict) (v : Mem × List FlashOp) : Device := ⟨v.1, script, v.2⟩

/-- **One operation**: how it ended is the next verdict. -/
theorem refines_operate {x : Prog σ BootFlashError Unit} {op : FlashOp} {full : Mem → Mem}
    {damaged : Damage → Mem → Mem}
    (h : ∀ s m, Idle c m s → wp x s (fun _ s' => Idle c (full m) s')
      (fun e s' => e = .backend ∧ ∃ d, Idle c (damaged d m) s')
      fun s' => ∃ d, Idle c (damaged d m) s') :
    Refines (Rests c) deviceOf x (Device.operate op full damaged) := by
  rintro s ⟨m, log⟩ hs
  have hx := h s m hs
  cases hend : x s with
  | ret u s' => exact ⟨[.ok], (full m, log ++ [op]), hx.ret hend, fun _ => rfl⟩
  | err e s' =>
    obtain ⟨rfl, d, hs'⟩ := hx.err hend
    exact ⟨[.fail d], (damaged d m, log ++ [op]), hs', fun _ => rfl⟩
  | cut s' =>
    obtain ⟨d, hs'⟩ := hx.cut hend
    exact ⟨[.cut d], (damaged d m, log ++ [op]), hs', fun _ => rfl⟩

theorem refines_targetProgram (address : ℕ) (data : List UInt8) :
    Refines (Rests c) deviceOf (hw.targetProgram address data)
      (Stm32SecurityLab.targetProgram address data) := by
  refine .bind (.check _ _) fun _ => refines_operate fun s m hs => ?_
  have hpart {s' : σ} (h : ∃ m', Idle c m' s' ∧ Programmed m address data m') :
      ∃ d : Damage, Idle c (programMem m address (data.take d.bytes)) s' := by
    obtain ⟨m', hs', n, rfl⟩ := h
    exact ⟨⟨n, .unchanged⟩, hs'⟩
  exact (guarded_spec (fun _ => flashProgramCritical_spec) (.none m address data)
    (.all m address data) hs).mono (fun _ _ h => h) (fun _ _ h => ⟨h.1, hpart h.2⟩)
    fun _ h => hpart h

theorem refines_targetEraseSector (sectorId : ℕ) :
    Refines (Rests c) deviceOf (hw.targetEraseSector sectorId)
      (Stm32SecurityLab.targetEraseSector sectorId) := by
  rw [targetEraseSector, Stm32SecurityLab.targetEraseSector]
  cases hsector : bootFlashSectors[sectorId]? with
  | none =>
    have hid : ¬ sectorId < bootFlashSectors.length :=
      Nat.not_lt.mpr (List.getElem?_eq_none_iff.mp hsector)
    rw [Prog.check, if_neg hid]
    exact fun _ v h => ⟨[], v, h, fun _ => rfl⟩
  | some sector =>
    obtain ⟨hid, -⟩ := List.getElem?_eq_some_iff.mp hsector
    rw [Prog.check, if_pos hid]
    refine refines_operate fun s m hs => ?_
    have hpart {s' : σ} (h : ∃ m', Idle c m' s' ∧ Erased m sector m') :
        ∃ d : Damage, Idle c (d.sector.apply m sector) s' := by
      obtain ⟨m', hs', d, rfl⟩ := h
      exact ⟨⟨0, d⟩, hs'⟩
    exact (guarded_spec (fun _ => flashEraseSectorCritical_spec hsector) (.refl m sector)
      (.full m sector) hs).mono (fun _ _ h => h) (fun _ _ h => ⟨h.1, hpart h.2⟩)
      fun _ h => hpart h

theorem refines_targetRead (address length : ℕ) :
    Refines (Rests c) deviceOf (hw.targetRead address length)
      (Stm32SecurityLab.targetRead address length) := by
  refine .bind (.check _ _) fun _ => .ite (fun _ => .pure _) fun _ => ?_
  rintro s ⟨m, log⟩ hs
  refine ⟨[.ok], (m, log), hs, fun _ => ?_⟩
  show Outcome.ret (slice m address length) _ = Outcome.ret (slice (hw.mem s) address length) _
  rw [hs.mem]
  rfl

end FlashController

/-! ### Calls of `boot_flash.c` -/

/-- A call of `boot_flash_read`, `boot_flash_erase_sector` or `boot_flash_program_aligned`. -/
inductive BootFlashCall where
  | read (address length : ℕ)
  | eraseSector (flash : BootFlash) (sectorId : ℕ)
  | programAligned (flash : BootFlash) (address : ℕ) (data : List UInt8)

/-- A status, with the bytes of a read. -/
abbrev BootFlashReply := Except BootFlashError (List UInt8)

variable {σ τ : Type}

def runFlashCall (ops : BootFlashOps σ) : BootFlashCall → Prog σ BootFlashError (List UInt8)
  | .read address length => bootFlashRead ops address length
  | .eraseSector flash sectorId => do
    bootFlashEraseSector ops flash sectorId
    pure []
  | .programAligned flash address data => do
    bootFlashProgramAligned ops flash address data
    pure []

/-- A client that makes `n` calls, each chosen by what it has seen. -/
def runFlashCalls (ops : BootFlashOps σ) (next : List BootFlashReply → BootFlashCall) :
    ℕ → Prog σ BootFlashError (List BootFlashReply)
  | 0 => pure []
  | n + 1 => do
    let replies ← runFlashCalls ops next n
    let reply ← (runFlashCall ops (next replies)).attempt
    pure (replies ++ [reply])

/-- One backend refines another. -/
structure BootFlashOps.Refines {ν κ : Type} (Rel : σ → ν → Prop) (put : List κ → ν → τ)
    (ops : BootFlashOps σ) (ops' : BootFlashOps τ) : Prop where
  read (address length : ℕ) :
    Crash.Refines Rel put (ops.read address length) (ops'.read address length)
  eraseSector (sectorId : ℕ) :
    Crash.Refines Rel put (ops.eraseSector sectorId) (ops'.eraseSector sectorId)
  program (address : ℕ) (data : List UInt8) :
    Crash.Refines Rel put (ops.program address data) (ops'.program address data)

namespace BootFlashOps.Refines

variable {ν κ : Type} {Rel : σ → ν → Prop} {put : List κ → ν → τ} {ops : BootFlashOps σ}
  {ops' : BootFlashOps τ}

theorem bootFlashRead (h : ops.Refines Rel put ops') (address length : ℕ) :
    Crash.Refines Rel put (bootFlashRead ops address length)
      (Stm32SecurityLab.bootFlashRead ops' address length) :=
  .bind (.check _ _) fun _ => .ite (fun _ => .pure _) fun _ => h.read _ _

theorem verifyLoop (h : ops.Refines Rel put ops') (address : ℕ) (data : List UInt8)
    (fuel offset : ℕ) :
    Crash.Refines Rel put (verifyLoop ops address data fuel offset)
      (Stm32SecurityLab.verifyLoop ops' address data fuel offset) := by
  induction fuel generalizing offset with
  | zero => exact .pure ()
  | succ fuel ih =>
    exact .ite (fun _ => .bind (h.bootFlashRead _ _) fun _ => .bind (.check _ _) fun _ => ih _)
      fun _ => .pure ()

theorem runFlashCall (h : ops.Refines Rel put ops') (call : BootFlashCall) :
    Crash.Refines Rel put (runFlashCall ops call) (Stm32SecurityLab.runFlashCall ops' call) := by
  cases call with
  | read address length => exact h.bootFlashRead address length
  | eraseSector flash sectorId =>
    exact .bind (.bind (.ofExcept _) fun _ => .bind (.check _ _) fun _ => h.eraseSector sectorId)
      fun _ => .pure []
  | programAligned flash address data =>
    refine .bind (.ite (fun _ => .pure ()) fun _ => ?_) fun _ => .pure []
    exact .bind (.check _ _) fun _ => .bind (.check _ _) fun _ => .bind (.check _ _) fun _ =>
      .bind (h.program address data) fun _ => h.verifyLoop _ _ _ _

/-- Clients cannot tell the backends apart. -/
theorem runFlashCalls (h : ops.Refines Rel put ops') (next : List BootFlashReply → BootFlashCall)
    (n : ℕ) :
    Crash.Refines Rel put (runFlashCalls ops next n)
      (Stm32SecurityLab.runFlashCalls ops' next n) := by
  induction n with
  | zero => exact .pure []
  | succ n ih =>
    exact .bind ih fun _ => .bind (.attempt (h.runFlashCall _)) fun _ => .pure _

end BootFlashOps.Refines

theorem FlashController.refines_ops {hw : FlashController σ} (c : FlashContract hw) :
    hw.ops.Refines (FlashController.Rests c) FlashController.deviceOf targetOps where
  read := FlashController.refines_targetRead
  eraseSector := FlashController.refines_targetEraseSector
  program := FlashController.refines_targetProgram

/-- **Calls on the registers are calls on the device**: for a controller that keeps the contract, the
device with a suitable script gives every call the same answer and ends with the same flash. -/
theorem boot_flash_refines (hw : FlashController σ) (c : FlashContract hw)
    (next : List BootFlashReply → BootFlashCall) (n : ℕ) (s : σ)
    (hidle : c.cr s &&& flashCrSelect = 0) :
    ∃ script log, runFlashCalls targetOps next n ⟨hw.mem s, script, []⟩ =
        (runFlashCalls hw.ops next n s).mapState (fun s' => ⟨hw.mem s', [], log⟩) ∧
      c.cr (runFlashCalls hw.ops next n s).state &&& flashCrSelect = 0 := by
  obtain ⟨script, ⟨m, log⟩, hrests, hrun⟩ := (FlashController.refines_ops c).runFlashCalls next n s
    (hw.mem s, []) ⟨rfl, hidle⟩
  refine ⟨script, log, ?_, hrests.select⟩
  have hmem : hw.mem (runFlashCalls hw.ops next n s).state = m := hrests.mem
  replace hrun := hrun []
  rw [List.append_nil] at hrun
  refine hrun.trans ?_
  rw [← hmem]
  cases runFlashCalls hw.ops next n s <;> rfl

/-! ### A controller -/

/-- The host test's context, with the error it can inject into programming, and the bytes after which
the power goes. -/
structure FlashHostContext where
  storage : Mem
  acr : UInt32 := flashAcrDcen
  sr : UInt32 := 0
  cr : UInt32 := flashCrLock
  programError : Bool := false
  power : Option ℕ := none

def flashSrPgserr : UInt32 := 0x80

namespace FlashHostContext

def reply (s : FlashHostContext) : FlashAccess → UInt32
  | .read .acr => s.acr
  | .read .sr => s.sr
  | .read .cr => s.cr
  | _ => 0

def next (s : FlashHostContext) : FlashAccess → FlashHostContext
  | .write .acr value => { s with acr := value }
  | .write .sr value => { s with sr := s.sr &&& ~~~value }
  | .write .cr value =>
    { s with
      cr := value
      storage :=
        if value &&& flashCrSelect = flashCrSer ∧ value &&& flashCrStrt ≠ 0 then
          match bootFlashSectors[((value &&& flashCrSnbMask) >>> 3).toNat]? with
          | some sector => eraseMem s.storage sector
          | none => s.storage
        else
          s.storage }
  | .write .keyr value =>
    if value = flashKey2 then { s with cr := s.cr &&& ~~~flashCrLock } else s
  | .store address byte =>
    if s.programError then
      { s with sr := s.sr ||| flashSrPgserr }
    else
      { s with storage := programMem s.storage address [byte], power := s.power.map Nat.pred }
  | _ => s

/-- After a reset the flash is locked. -/
def respond (s : FlashHostContext) : FlashAccess → Option UInt32 × FlashHostContext
  | .store address byte =>
    if s.power = some 0 then (none, { s with cr := flashCrLock })
    else (some 0, s.next (.store address byte))
  | a => (some (s.reply a), s.next a)

variable {s s' : FlashHostContext} {a : FlashAccess}

theorem next_select (hcr : ¬ a.Writes .cr) :
    (s.next a).cr &&& flashCrSelect = s.cr &&& flashCrSelect := by
  cases a with
  | read | saveDisable | enable => rfl
  | store =>
    rw [next]
    split <;> rfl
  | write register value =>
    cases register with
    | cr => exact absurd rfl hcr
    | acr | sr => rfl
    | keyr =>
      rw [next]
      split
      · show (s.cr &&& ~~~flashCrLock) &&& flashCrSelect = _
        rw [UInt32.and_assoc]
        rfl
      · rfl

theorem next_cr (hcr : ¬ a.Writes .cr) (hkeyr : ¬ a.Writes .keyr) : (s.next a).cr = s.cr := by
  cases a with
  | read | saveDisable | enable => rfl
  | store =>
    rw [next]
    split <;> rfl
  | write register value =>
    cases register with
    | cr => exact absurd rfl hcr
    | keyr => exact absurd rfl hkeyr
    | acr | sr => rfl

theorem next_acr (hacr : ¬ a.Writes .acr) : (s.next a).acr = s.acr := by
  cases a with
  | read | saveDisable | enable => rfl
  | store =>
    rw [next]
    split <;> rfl
  | write register value =>
    cases register with
    | acr => exact absurd rfl hacr
    | cr | sr => rfl
    | keyr =>
      rw [next]
      split <;> rfl

theorem next_storage (hcr : ¬ a.Writes .cr) (hstore : ¬ a.Stores) :
    (s.next a).storage = s.storage := by
  cases a with
  | read | saveDisable | enable => rfl
  | store => exact absurd trivial hstore
  | write register value =>
    cases register with
    | cr => exact absurd rfl hcr
    | acr | sr => rfl
    | keyr =>
      rw [next]
      split <;> rfl

end FlashHostContext

/-- The controller of the host test. Its data cache never holds anything. -/
def hostController : FlashController FlashHostContext where
  respond a s := s.respond a
  mem s := s.storage

section HostController

variable {s s' : FlashHostContext} {a : FlashAccess}

theorem hostController_some {value : UInt32} (h : hostController.respond a s = (some value, s')) :
    value = s.reply a ∧ s' = s.next a := by
  change s.respond a = _ at h
  cases a with
  | store address byte =>
    rw [FlashHostContext.respond] at h
    split at h <;> cases h
    exact ⟨rfl, rfl⟩
  | read | write | saveDisable | enable =>
    cases h
    exact ⟨rfl, rfl⟩

theorem hostController_none (h : hostController.respond a s = (none, s')) :
    s' = { s with cr := flashCrLock } := by
  change s.respond a = _ at h
  cases a with
  | store address byte =>
    rw [FlashHostContext.respond] at h
    split at h <;> cases h
    rfl
  | read | write | saveDisable | enable => cases h

theorem hostController_storage {reply : Option UInt32} (h : hostController.respond a s = (reply, s'))
    (hcr : ¬ a.Writes .cr) (hstore : ¬ a.Stores) : s'.storage = s.storage := by
  cases reply with
  | none => rw [hostController_none h]
  | some value => rw [(hostController_some h).2, FlashHostContext.next_storage hcr hstore]

end HostController

def hostContract : FlashContract hostController where
  cr s := s.cr
  busy _ := False
  failed s := s.sr &&& flashSrErrorMask ≠ 0
  cached s := s.acr &&& flashAcrDcen ≠ 0
  stale _ := False
  read_cr h := (hostController_some h).1
  read_busy _ h := h.elim
  read_failed h hfailed := by
    obtain ⟨rfl, rfl⟩ := hostController_some h
    exact ⟨hfailed, hfailed⟩
  select_keep h hcr := by
    rw [(hostController_some h).2]
    exact FlashHostContext.next_select hcr
  lock_keep h hcr hkeyr := by
    rw [(hostController_some h).2, FlashHostContext.next_cr hcr hkeyr]
  select_write h _ := by
    rw [(hostController_some h).2]
    rfl
  lock_write h _ hlock := by
    rw [(hostController_some h).2]
    exact hlock
  select_cut h := by
    rw [hostController_none h]
    exact (by decide : flashCrLock &&& flashCrSelect = 0)
  read_acr h := by
    rw [(hostController_some h).1]
    rfl
  cached_keep h hacr := by
    rw [(hostController_some h).2, FlashHostContext.next_acr hacr]
  cached_write h := by
    rw [(hostController_some h).2]
    rfl
  stale_keep _ _ _ h := h
  stale_reset _ _ _ := id
  mem_keep h hcr _ hstore := hostController_storage h hcr hstore
  mem_cache h _ := hostController_storage h (fun hcr => by cases hcr) id
  mem_write h hidle := by
    cases h
    refine if_neg fun hstart => ?_
    rcases hidle with hselect | hstrt
    · exact absurd (hstart.1.symm.trans hselect) (by decide)
    · exact hstart.2 hstrt
  mem_erase h hser hstrt hsector _ := by
    cases h
    refine .inl ((if_pos ⟨hser, hstrt⟩).trans ?_)
    rw [hsector]
    rfl
  mem_store {s s' address byte reply} h _ := by
    cases reply with
    | none =>
      rw [hostController_none h]
      exact .inr ⟨rfl, .inl rfl⟩
    | some value =>
      rw [(hostController_some h).2, FlashHostContext.next]
      split
      · refine .inr ⟨rfl, .inr (.inr ?_)⟩
        show (s.sr ||| flashSrPgserr) &&& flashSrErrorMask ≠ 0
        rw [FlashController.masked_or]
        intro hzero
        exact absurd (UInt32.or_eq_zero_iff.mp hzero).2 (by decide)
      · exact .inl rfl

/-- Erase the sector of the first metadata copy, and program two bytes of it. -/
def reprogram (replies : List BootFlashReply) : BootFlashCall :=
  let flash : BootFlash := ⟨bootFlashTargetProgramAlignment, metadataWriteRegions,
    bootFlashTargetProgramAlignment_pow, metadataWriteRegions_valid⟩
  if replies = [] then
    .eraseSector flash Layout.bootMetadataAFirstSector
  else
    .programAligned flash Layout.bootMetadataABase [7, 8]

/-- What a client has seen, unless the power went. -/
def repliesOf {σ : Type} :
    Outcome σ BootFlashError (List BootFlashReply) → Option (List BootFlashReply)
  | .ret replies _ => some replies
  | _ => none

/-- The controller gives a client these replies, or loses power, and the device does the same. -/
def ReprogramsAs (s : FlashHostContext) (replies : Option (List BootFlashReply)) : Prop :=
  repliesOf (runFlashCalls hostController.ops reprogram 2 s) = replies ∧
    ∃ script log, runFlashCalls targetOps reprogram 2 ⟨s.storage, script, []⟩ =
      (runFlashCalls hostController.ops reprogram 2 s).mapState fun s' => ⟨s'.storage, [], log⟩

/-- Nothing goes wrong, programming fails, and the power goes between the bytes. -/
theorem boot_flash_refines_host :
    ReprogramsAs { storage := fun _ => 0 } (some [.ok [], .ok []]) ∧
      ReprogramsAs { storage := fun _ => 0, programError := true }
        (some [.ok [], .error .backend]) ∧
      ReprogramsAs { storage := fun _ => 0, power := some 1 } none := by
  have hrefines (s : FlashHostContext) (hcr : s.cr = flashCrLock) :
      ∃ script log, runFlashCalls targetOps reprogram 2 ⟨s.storage, script, []⟩ =
        (runFlashCalls hostController.ops reprogram 2 s).mapState
          fun s' => ⟨s'.storage, [], log⟩ := by
    obtain ⟨script, log, hrun, -⟩ := boot_flash_refines hostController hostContract reprogram 2 s
      (by rw [show hostContract.cr s = s.cr from rfl, hcr]; rfl)
    exact ⟨script, log, hrun⟩
  exact ⟨⟨by decide +kernel, hrefines _ rfl⟩, ⟨by decide +kernel, hrefines _ rfl⟩,
    ⟨by decide +kernel, hrefines _ rfl⟩⟩

end Stm32SecurityLab
