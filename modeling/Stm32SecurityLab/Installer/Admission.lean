import Stm32SecurityLab.Installer.Quiet
import Stm32SecurityLab.Host.Packages

/-!
# Headers and packages

The streamed path checks a header before it has seen the payload, the other path checks a whole
package. They run different checks in a different order. What the second adds to the first is the
length, the least version, the hash of the payload and the two words of the vector table.

## Main results

* `packageAccepted_iff` — a package is accepted when its header is and its payload belongs to it
* `header_package_agree` — the two checks agree
-/

namespace Stm32SecurityLab

open Crash

/-- The stack pointer and the reset vector of an image for a slot. -/
structure VectorWordsValid (slot : BootSlotDescriptor) (imageSize : ℕ) (payload : Mem) : Prop where
  stack : Layout.applicationMspBase.toNat < (loadLe32 payload 0).toNat ∧
    (loadLe32 payload 0).toNat ≤ Layout.applicationMspEnd.toNat ∧ 8 ∣ (loadLe32 payload 0).toNat
  odd : (loadLe32 payload 4).toNat % 2 = 1
  reset : slot.payloadBase ≤ (loadLe32 payload 4).toNat - 1 ∧
    (loadLe32 payload 4).toNat - 1 < slot.payloadBase + imageSize

/-- A payload that belongs to a header. -/
structure PayloadAccepted (crypto : Crypto) (slot : BootSlotDescriptor)
    (header : UpdatePackageHeader) (payload : List UInt8) : Prop where
  length : payload.length = header.payloadSize
  hash : crypto.sha512 payload = header.manifest.payloadSha512
  vectors : VectorWordsValid slot header.payloadSize (byteAt payload)

section Package

variable {crypto : Crypto} {publicKey headerBytes payload package : List UInt8} {slot : BootSlotId}
  {header : UpdatePackageHeader}

/-- The manifest of a package is that of its header. -/
theorem decodeManifestBytes_package (hlength : headerBytes.length = Layout.signedImageHeaderSize) :
    decodeManifestBytes (byteAt (headerBytes ++ payload)) =
      decodeManifestBytes (byteAt headerBytes) := by
  rw [← decodeManifestBytes_take, List.take_append_of_le_length (by rw [hlength]; decide),
    decodeManifestBytes_take]

theorem paddingIsCanonical_append (hlength : headerBytes.length = Layout.signedImageHeaderSize) :
    paddingIsCanonical (headerBytes ++ payload) = paddingIsCanonical headerBytes := by
  rw [Bool.eq_iff_iff]
  simp only [paddingIsCanonical, List.all_eq_true, List.mem_range'_1]
  refine forall_congr' fun i => imp_congr_right fun hi => ?_
  rw [byteAt_append_left]
  rw [hlength]
  simp only [Layout.signedManifestSize, Layout.signedSignatureSize,
    Layout.signedImageHeaderSize] at hi ⊢
  omega

theorem manifestBytes_package (hlength : headerBytes.length = Layout.signedImageHeaderSize) :
    (headerBytes ++ payload).take Layout.signedManifestSize =
      headerBytes.take Layout.signedManifestSize :=
  List.take_append_of_le_length (by rw [hlength]; decide)

theorem signatureBytes_package (hlength : headerBytes.length = Layout.signedImageHeaderSize) :
    ((headerBytes ++ payload).drop Layout.signedManifestSize).take Layout.signedSignatureSize =
      (headerBytes.drop Layout.signedManifestSize).take Layout.signedSignatureSize := by
  rw [List.drop_append_of_le_length (by rw [hlength]; decide),
    List.take_append_of_le_length (by rw [List.length_drop, hlength]; decide)]

/-- The header of an accepted package is accepted. -/
theorem headerAccepted_of_package
    (hlength : headerBytes.length = Layout.signedImageHeaderSize)
    (h : Host.PackageAccepted crypto (headerBytes ++ payload) publicKey slot) :
    ∃ header, HeaderAccepted crypto publicKey headerBytes (bootSlots slot) header ∧
      minImageVersion ≤ header.manifest.imageVersion ∧
      PayloadAccepted crypto (bootSlots slot) header payload := by
  obtain ⟨hsize, hpadding, himage⟩ := h
  rw [decodeManifestBytes_package hlength] at hsize himage
  rw [paddingIsCanonical_append hlength] at hpadding
  rw [manifestBytes_package hlength, signatureBytes_package hlength, ← hlength,
    List.drop_left] at himage
  rw [List.length_append, hlength, Nat.add_left_cancel_iff] at hsize
  have hhash := himage.hash
  rw [← hsize, slice_byteAt] at hhash
  refine ⟨{ manifest := decodeManifestBytes (byteAt headerBytes)
            manifestBytes := headerBytes.take Layout.signedManifestSize
            signatureBytes :=
              (headerBytes.drop Layout.signedManifestSize).take Layout.signedSignatureSize
            payloadSize := (decodeManifestBytes (byteAt headerBytes)).imageSize.toNat
            packageSize := Layout.signedImageHeaderSize +
              (decodeManifestBytes (byteAt headerBytes)).imageSize.toNat }, ?_, himage.version, ?_⟩
  · exact
      { length := hlength
        manifest := rfl
        manifestBytes := rfl
        signatureBytes := rfl
        payloadSize := rfl
        packageSize := rfl
        magic := himage.magic
        version := himage.headerVersion
        flags := himage.flags
        target := himage.target
        imageType := himage.imageType
        minSize := himage.minSize
        padding := hpadding
        vector := himage.vector
        fits := himage.maxSize.trans (min_le_left _ _)
        signature := himage.signature }
  · exact ⟨hsize, hhash, himage.stack, himage.odd, himage.reset⟩

/-- An accepted header and a payload that belongs to it are an accepted package. -/
theorem HeaderAccepted.packageAccepted
    (h : HeaderAccepted crypto publicKey headerBytes (bootSlots slot) header)
    (hversion : minImageVersion ≤ header.manifest.imageVersion)
    (hpayload : PayloadAccepted crypto (bootSlots slot) header payload) :
    Host.PackageAccepted crypto (headerBytes ++ payload) publicKey slot := by
  have hmanifest : decodeManifestBytes (byteAt (headerBytes ++ payload)) = header.manifest := by
    rw [decodeManifestBytes_package h.length, h.manifest]
  refine ⟨?_, ?_, ?_⟩
  · rw [hmanifest, List.length_append, h.length, hpayload.length, h.payloadSize]
  · rw [paddingIsCanonical_append h.length, h.padding]
  · rw [hmanifest, manifestBytes_package h.length, signatureBytes_package h.length, ← h.length,
      List.drop_left, ← h.manifestBytes, ← h.signatureBytes, ← h.payloadSize]
    have hminimum := h.minSize
    have hfits := h.fits
    have hreset := hpayload.vectors.reset
    rw [h.payloadSize] at hminimum hfits hreset
    refine ⟨h.magic, h.version, h.flags, h.target, h.imageType, hversion, h.vector, hminimum, ?_,
      hpayload.vectors.stack, hpayload.vectors.odd, hreset, ?_, h.signature⟩
    · rw [h.payloadSize]
      exact le_min hfits le_rfl
    · rw [← h.payloadSize, ← hpayload.length, slice_byteAt]
      exact hpayload.hash

/-- **A package is accepted when its header is and its payload belongs to it.** -/
theorem packageAccepted_iff :
    Host.PackageAccepted crypto package publicKey slot ↔ ∃ header,
      HeaderAccepted crypto publicKey (package.take Layout.signedImageHeaderSize) (bootSlots slot)
        header ∧
      minImageVersion ≤ header.manifest.imageVersion ∧
      PayloadAccepted crypto (bootSlots slot) header
        (package.drop Layout.signedImageHeaderSize) := by
  have hsplit := List.take_append_drop Layout.signedImageHeaderSize package
  constructor
  · intro h
    have hlength : (package.take Layout.signedImageHeaderSize).length =
        Layout.signedImageHeaderSize := by
      rw [List.length_take, h.length]
      exact Nat.min_eq_left (Nat.le_add_right _ _)
    rw [← hsplit] at h
    exact headerAccepted_of_package hlength h
  · rintro ⟨header, hheader, hversion, hpayload⟩
    rw [← hsplit]
    exact hheader.packageAccepted hversion hpayload

/-- Of the strings that begin alike, one is accepted at most. -/
theorem packageAccepted_eq_of_le {p q : List UInt8} (hstart : p <+: q)
    (hp : Host.PackageAccepted crypto p publicKey slot)
    (hq : Host.PackageAccepted crypto q publicKey slot) : p = q := by
  have hsame : decodeManifestBytes (byteAt p) = decodeManifestBytes (byteAt q) := by
    obtain ⟨rest, rfl⟩ := hstart
    have hle : Layout.signedManifestSize ≤ p.length := by
      rw [hp.length]
      exact le_trans (by decide) (Nat.le_add_right _ _)
    rw [← decodeManifestBytes_take p, ← decodeManifestBytes_take (p ++ rest),
      List.take_append_of_le_length hle]
  refine hstart.eq_of_length ?_
  rw [hp.length, hq.length, hsame]

/-- An accepted package is taken apart into its header and its payload. -/
theorem updatePackageVerifyForSlot_parsed {slot : BootSlotDescriptor} {parsed : UpdatePackage}
    (h : (updatePackageVerifyForSlot crypto package publicKey slot).1 = .ok parsed) :
    parsed.payload = package.drop Layout.signedImageHeaderSize ∧
      parsed.payloadSize = (decodeManifestBytes (byteAt package)).imageSize.toNat ∧
      parsed.manifest = decodeManifestBytes (byteAt package) := by
  rw [updatePackageVerifyForSlot] at h
  split at h
  · cases h
  rename_i parsed' hparse
  simp only [updatePackageParse, except_bind_eq_ok, require_eq_ok, Unique.exists_iff,
    parseHeaderCommon_eq_ok_iff] at hparse
  obtain ⟨_, ⟨-, -, -, -, -, -, -, -, -, rfl⟩, -, -, hparsed⟩ := hparse
  cases hparsed
  split at h
  · cases h
  split at h
  · cases h
  · cases h
    exact ⟨rfl, rfl, rfl⟩

/-- **The check of a header and the check of a package agree.** What the second accepts begins with
a header the first accepts. An accepted header makes an accepted package of every payload that
belongs to it, of nothing shorter or longer, and the package fits the slot. So a package is accepted
as a whole exactly when its header is, with a payload that belongs to it. -/
theorem header_package_agree (crypto : Crypto) (publicKey : List UInt8) (slot : BootSlotId) :
    (∀ package parsed,
      (updatePackageVerifyForSlot crypto package publicKey (bootSlots slot)).1 = .ok parsed →
      ∃ header, updatePackageVerifyHeaderForSlot crypto
          (package.take Layout.signedImageHeaderSize) publicKey (bootSlots slot) =
          (.ok header, .ok ()) ∧
        header.manifest = parsed.manifest ∧ header.packageSize = package.length) ∧
    (∀ headerBytes header,
      (updatePackageVerifyHeaderForSlot crypto headerBytes publicKey (bootSlots slot)).1 =
        .ok header →
      minImageVersion ≤ header.manifest.imageVersion →
      ∀ payload, payload.length = header.payloadSize →
        crypto.sha512 payload = header.manifest.payloadSha512 →
        VectorWordsValid (bootSlots slot) header.payloadSize (byteAt payload) →
        (∃ parsed, (updatePackageVerifyForSlot crypto (headerBytes ++ payload) publicKey
          (bootSlots slot)).1 = .ok parsed ∧ parsed.manifest = header.manifest) ∧
        (∀ other, other <+: headerBytes ++ payload ∨ headerBytes ++ payload <+: other →
          other ≠ headerBytes ++ payload → ¬ ∃ parsed,
            (updatePackageVerifyForSlot crypto other publicKey (bootSlots slot)).1 = .ok parsed) ∧
        ∀ flash : BootFlash, flash.programAlignment ∣ 512 →
          ∃ size, candidatePackageFits flash (bootSlots slot) header = .ok size) ∧
    ∀ package,
      (∃ parsed, (updatePackageVerifyForSlot crypto package publicKey (bootSlots slot)).1 =
        .ok parsed) ↔
      ∃ header, (updatePackageVerifyHeaderForSlot crypto
          (package.take Layout.signedImageHeaderSize) publicKey (bootSlots slot)).1 = .ok header ∧
        minImageVersion ≤ header.manifest.imageVersion ∧
        PayloadAccepted crypto (bootSlots slot) header
          (package.drop Layout.signedImageHeaderSize) := by
  refine ⟨fun package parsed h => ?_, fun headerBytes header h hversion payload hlength hhash
    hvectors => ?_, fun package => ?_⟩
  · have hpackage := Host.updatePackageVerifyForSlot_iff.mp ⟨parsed, h⟩
    obtain ⟨header, hheader, -, hpayload⟩ := packageAccepted_iff.mp hpackage
    refine ⟨header, hheader.verify, ?_, ?_⟩
    · rw [hheader.manifest, (updatePackageVerifyForSlot_parsed h).2.2,
        ← decodeManifestBytes_take, List.take_take, ← decodeManifestBytes_take package]
      rfl
    · have hsize := hpackage.length
      have hdrop := hpayload.length
      rw [List.length_drop] at hdrop
      rw [hheader.packageSize]
      omega
  · have hheader := updatePackageVerifyHeaderForSlot_ok h
    have hpackage := hheader.packageAccepted hversion ⟨hlength, hhash, hvectors⟩
    refine ⟨?_, fun other hother hne hparsed => ?_, fun flash halign => ?_⟩
    · obtain ⟨parsed, hparsed⟩ := Host.updatePackageVerifyForSlot_iff.mpr hpackage
      refine ⟨parsed, hparsed, ?_⟩
      rw [(updatePackageVerifyForSlot_parsed hparsed).2.2,
        decodeManifestBytes_package hheader.length, hheader.manifest]
    · have hother' := Host.updatePackageVerifyForSlot_iff.mp hparsed
      rcases hother with hshort | hlong
      · exact hne (packageAccepted_eq_of_le hshort hother' hpackage)
      · exact hne (packageAccepted_eq_of_le hlong hpackage hother').symm
    · exact candidatePackageFits_of_accepted halign hheader
  · rw [Host.updatePackageVerifyForSlot_iff, packageAccepted_iff]
    refine exists_congr fun header => and_congr_left fun _ => ?_
    exact ⟨fun h => by rw [h.verify], updatePackageVerifyHeaderForSlot_ok⟩

end Package

end Stm32SecurityLab
