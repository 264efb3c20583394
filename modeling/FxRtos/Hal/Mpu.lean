/-
  File:      FxRtos/Hal/Mpu.lean
  Subject:   THE REGIONS OF THE MEMORY PROTECTION UNIT (hw_mpu.c). All regions share one pair of
             registers, a window on the region that a third one selects.

  * `HwMpu` -- `region_base` and `region_attr` read and write what belongs to the region selected
    by `region_number`.
  * `MpuRegion`, `MpuCall.note` -- the regions as independent stores.
  * `mpu_regions` -- `hw_mpu_region_get` reports what was given last, exactly as long as no
    `hw_mpu_region_set_enable` finds a region of another size or access selected: it reads the
    attributes before it selects its own.
-/
import FxRtos.Lib.Reach
import Mathlib.Logic.Function.Basic
import Mathlib.Algebra.Order.Ring.Nat

namespace FxRtos

open Function (update)
open Lib

/-! ## 1. The code -/

/-- `hw_mpu_t`, with what its window shows of each region. -/
structure HwMpu where
  type : BitVec 32
  regionNumber : BitVec 32
  base : BitVec 32 → BitVec 32
  attr : BitVec 32 → BitVec 32

def HwMpu.regionBase (m : HwMpu) : BitVec 32 := m.base m.regionNumber

def HwMpu.regionAttr (m : HwMpu) : BitVec 32 := m.attr m.regionNumber

def HwMpu.select (m : HwMpu) (region : BitVec 32) : HwMpu :=
  { m with regionNumber := region &&& 0xFF#32 }

def HwMpu.writeBase (m : HwMpu) (v : BitVec 32) : HwMpu :=
  { m with base := update m.base m.regionNumber v }

def HwMpu.writeAttr (m : HwMpu) (v : BitVec 32) : HwMpu :=
  { m with attr := update m.attr m.regionNumber v }

def boolWord (b : Bool) : BitVec 32 := if b then 1#32 else 0#32

/-- What is reported of a region, or was given for it. -/
structure MpuRegion where
  base : BitVec 32
  size : Nat
  attr : BitVec 32
  enabled : Bool
  deriving DecidableEq

def hwMpuRegionGetCount (m : HwMpu) : BitVec 32 := (m.type >>> 8) &&& 0xFF#32

def hwMpuRegionSetEnable (m : HwMpu) (region : BitVec 32) (enabled : Bool) : HwMpu :=
  let regionAttr := m.regionAttr &&& ~~~1#32 ||| boolWord enabled
  (m.select region).writeAttr regionAttr

def hwMpuRegionSetAccess (m : HwMpu) (region addr sz attr : BitVec 32) : HwMpu :=
  let regionAttr := attr <<< 24 ||| sz <<< 1 ||| 1#32
  ((m.select region).writeBase addr).writeAttr regionAttr

/-- The fields of `region_attr`: the size in bytes, the access attributes, the enable bit. -/
def attrSize (attributes : BitVec 32) : BitVec 32 :=
  1#32 <<< ((attributes >>> 1 &&& 0x1F#32) + 1#32)

def attrAccess (attributes : BitVec 32) : BitVec 32 := attributes >>> 24 &&& 7#32

def attrEnabled (attributes : BitVec 32) : Bool := decide (attributes &&& 1#32 = 1#32)

def hwMpuRegionGet (m : HwMpu) (region : BitVec 32) : MpuRegion × HwMpu :=
  let m1 := m.select region
  let attributes := m1.regionAttr
  (⟨m1.regionBase, (attrSize attributes).toNat, attrAccess attributes, attrEnabled attributes⟩, m1)

/-! ## 2. Runs -/

inductive MpuCall where
  | setAccess (region addr sz attr : BitVec 32)
  | setEnable (region : BitVec 32) (enabled : Bool)
  | get (region : BitVec 32)

def mpuStep : MpuCall → HwMpu → Option HwMpu
  | .setAccess region addr sz attr, m => some (hwMpuRegionSetAccess m region addr sz attr)
  | .setEnable region enabled, m => some (hwMpuRegionSetEnable m region enabled)
  | .get region, m => some (hwMpuRegionGet m region).2

/-- The regions as independent stores. -/
def MpuCall.note (c : MpuCall) (_ : HwMpu) (given : BitVec 32 → MpuRegion) :
    BitVec 32 → MpuRegion :=
  match c with
  | .setAccess region addr sz attr => update given region ⟨addr, 2 ^ (sz.toNat + 1), attr, true⟩
  | .setEnable region enabled => update given region { given region with enabled := enabled }
  | .get _ => given

def HwMpu.report (m : HwMpu) (region : BitVec 32) : MpuRegion := (hwMpuRegionGet m region).1

/-- There is such a region. -/
def HwMpu.Has (m : HwMpu) (region : BitVec 32) : Prop := region < hwMpuRegionGetCount m

/-- The region exists, and size and attributes fit their fields. -/
def MpuCall.Valid (m : HwMpu) : MpuCall → Prop
  | .setAccess region _ sz attr =>
    m.Has region ∧ 4#32 ≤ sz ∧ sz ≤ 30#32 ∧ attr < 8#32
  | .setEnable region _ => m.Has region
  | .get region => m.Has region

/-- Where the enable bit of a region is set or cleared, the region selected before has the same
    size and access attributes. -/
def MpuCall.Unmixed (m : HwMpu) : MpuCall → Prop
  | .setEnable region _ => attrSize m.regionAttr = attrSize (m.attr region) ∧
      attrAccess m.regionAttr = attrAccess (m.attr region)
  | _ => True

/-! ## 3. Fields -/

section Felder

variable {m : HwMpu} {region r : BitVec 32}

theorem Has_select (h : m.Has region) : region &&& 0xFF#32 = region := by
  have hcount : (hwMpuRegionGetCount m).toNat ≤ 255 := by
    unfold hwMpuRegionGetCount
    rw [BitVec.toNat_and]
    exact Nat.and_le_right
  have hlt : region.toNat < (hwMpuRegionGetCount m).toNat := h
  apply BitVec.eq_of_toNat_eq
  rw [BitVec.toNat_and, show (0xFF#32).toNat = 2 ^ 8 - 1 from rfl, Nat.and_two_pow_sub_one_eq_mod]
  omega

theorem boolWord_getLsbD (b : Bool) {i : Nat} (hi : 1 ≤ i) : (boolWord b).getLsbD i = false := by
  cases b with
  | false => exact BitVec.getLsbD_zero
  | true =>
    show (1#32).getLsbD i = false
    rw [BitVec.getLsbD_one]
    simp only [Bool.and_eq_false_iff, decide_eq_false_iff_not]
    omega

/-- Setting the lowest bit leaves the others. -/
theorem enable_ushiftRight (w : BitVec 32) (b : Bool) {n : Nat} (hn : 1 ≤ n) :
    (w &&& ~~~1#32 ||| boolWord b) >>> n = w >>> n := by
  apply BitVec.eq_of_getLsbD_eq
  intro i _
  have h1 : (1#32).getLsbD (n + i) = false := boolWord_getLsbD true (by omega)
  have hb := boolWord_getLsbD b (i := n + i) (by omega)
  rw [BitVec.getLsbD_ushiftRight, BitVec.getLsbD_ushiftRight, BitVec.getLsbD_or,
    BitVec.getLsbD_and, BitVec.getLsbD_not, h1, hb]
  by_cases h : n + i < 32
  · simp [h]
  · simp [BitVec.getLsbD_of_ge _ _ (Nat.le_of_not_lt h)]

theorem attrSize_enable (w : BitVec 32) (b : Bool) :
    attrSize (w &&& ~~~1#32 ||| boolWord b) = attrSize w := by
  unfold attrSize
  rw [enable_ushiftRight w b (Nat.le_refl 1)]

theorem attrAccess_enable (w : BitVec 32) (b : Bool) :
    attrAccess (w &&& ~~~1#32 ||| boolWord b) = attrAccess w := by
  unfold attrAccess
  rw [enable_ushiftRight w b (by decide)]

theorem attrEnabled_enable (w : BitVec 32) (b : Bool) :
    attrEnabled (w &&& ~~~1#32 ||| boolWord b) = b := by
  have hclear : (~~~1#32 : BitVec 32) &&& 1#32 = 0#32 := by decide
  unfold attrEnabled
  rw [BitVec.and_or_distrib_right, BitVec.and_assoc, hclear, BitVec.and_zero, BitVec.zero_or]
  cases b <;> rfl

/-- The word that `hw_mpu_region_set_access` writes, field by field. -/
theorem access_fields : ∀ sz < 31, ∀ attr < 8,
    (attrSize (BitVec.ofNat 32 attr <<< 24 ||| BitVec.ofNat 32 sz <<< 1 ||| 1#32)).toNat =
      2 ^ (sz + 1) ∧
    attrAccess (BitVec.ofNat 32 attr <<< 24 ||| BitVec.ofNat 32 sz <<< 1 ||| 1#32) =
      BitVec.ofNat 32 attr ∧
    attrEnabled (BitVec.ofNat 32 attr <<< 24 ||| BitVec.ofNat 32 sz <<< 1 ||| 1#32) = true := by
  decide +kernel

/-! ## 4. Calls -/

theorem report_eq (h : m.Has r) : m.report r = ⟨m.base r, (attrSize (m.attr r)).toNat,
    attrAccess (m.attr r), attrEnabled (m.attr r)⟩ := by
  unfold HwMpu.report hwMpuRegionGet HwMpu.regionAttr HwMpu.regionBase HwMpu.select
  rw [Has_select h]

/-- **`hw_mpu_region_set_access`** reports what it was given, and of the others what it did. -/
theorem setAccess_report {addr sz attr : BitVec 32} (h : m.Has region) (hsz : sz ≤ 30#32)
    (hattr : attr < 8#32) (hr : m.Has r) :
    (hwMpuRegionSetAccess m region addr sz attr).report r =
      update m.report region ⟨addr, 2 ^ (sz.toNat + 1), attr, true⟩ r := by
  have hr' : (hwMpuRegionSetAccess m region addr sz attr).Has r := hr
  have hword := access_fields sz.toNat (Nat.lt_succ_of_le hsz) attr.toNat hattr
  rw [BitVec.ofNat_toNat, BitVec.ofNat_toNat, BitVec.setWidth_eq, BitVec.setWidth_eq] at hword
  obtain ⟨hsize, haccess, henabled⟩ := hword
  rw [report_eq hr']
  unfold hwMpuRegionSetAccess HwMpu.writeAttr HwMpu.writeBase HwMpu.select
  rw [Has_select h]
  dsimp only
  by_cases hrr : r = region
  · subst hrr
    rw [Function.update_self, Function.update_self, Function.update_self, hsize, haccess, henabled]
  · rw [Function.update_of_ne hrr, Function.update_of_ne hrr, Function.update_of_ne hrr,
      report_eq hr]

/-- **`hw_mpu_region_set_enable`** makes the region one of the size and access selected before. -/
theorem setEnable_report {enabled : Bool} (h : m.Has region) (hr : m.Has r) :
    (hwMpuRegionSetEnable m region enabled).report r = update m.report region
      ⟨m.base region, (attrSize m.regionAttr).toNat, attrAccess m.regionAttr, enabled⟩ r := by
  have hr' : (hwMpuRegionSetEnable m region enabled).Has r := hr
  rw [report_eq hr']
  unfold hwMpuRegionSetEnable HwMpu.writeAttr HwMpu.select
  rw [Has_select h]
  dsimp only
  by_cases hrr : r = region
  · subst hrr
    rw [Function.update_self, Function.update_self, attrSize_enable, attrAccess_enable,
      attrEnabled_enable]
  · rw [Function.update_of_ne hrr, Function.update_of_ne hrr, report_eq hr]

theorem get_report (hr : m.Has r) : (hwMpuRegionGet m region).2.report r = m.report r := by
  have hr' : (hwMpuRegionGet m region).2.Has r := hr
  rw [report_eq hr', report_eq hr]
  rfl

/-- **One call** keeps the report what was given exactly if it mixes up no regions. -/
theorem mpu_step {m' : HwMpu} {c : MpuCall} {given : BitVec 32 → MpuRegion}
    (hok : ∀ r, m.Has r → m.report r = given r) (hc : c.Valid m) (hs : mpuStep c m = some m') :
    (∀ r, m'.Has r ↔ m.Has r) ∧
      ((∀ r, m.Has r → m'.report r = c.note m given r) ↔ c.Unmixed m) := by
  cases c with
  | setAccess region addr sz attr =>
    obtain ⟨hreg, _, hsz, hattr⟩ := hc
    cases hs
    refine ⟨fun _ => Iff.rfl, iff_of_true (fun r hr => ?_) trivial⟩
    rw [setAccess_report hreg hsz hattr hr]
    show update m.report region _ r = update given region _ r
    by_cases hrr : r = region
    · rw [hrr, Function.update_self, Function.update_self]
    · rw [Function.update_of_ne hrr, Function.update_of_ne hrr, hok r hr]
  | setEnable region enabled =>
    have hreg : m.Has region := hc
    cases hs
    have hgiven : given region = ⟨m.base region, (attrSize (m.attr region)).toNat,
        attrAccess (m.attr region), attrEnabled (m.attr region)⟩ :=
      (hok region hreg).symm.trans (report_eq hreg)
    refine ⟨fun _ => Iff.rfl, fun h => ?_, fun ⟨hsize, haccess⟩ r hr => ?_⟩
    · have hself := h region hreg
      rw [setEnable_report hreg hreg, Function.update_self] at hself
      change _ = update given region _ region at hself
      rw [Function.update_self, hgiven, MpuRegion.mk.injEq] at hself
      exact ⟨BitVec.eq_of_toNat_eq hself.2.1, hself.2.2.1⟩
    · rw [setEnable_report hreg hr]
      show update m.report region _ r = update given region _ r
      by_cases hrr : r = region
      · rw [hrr, Function.update_self, Function.update_self, hgiven, hsize, haccess]
      · rw [Function.update_of_ne hrr, Function.update_of_ne hrr, hok r hr]
  | get region =>
    cases hs
    exact ⟨fun _ => Iff.rfl, iff_of_true (fun r hr => (get_report hr).trans (hok r hr)) trivial⟩

end Felder

/-! ## 5. Every sequence of calls -/

/-- **Regions are independent stores** in every sequence of calls that mixes up none of them; a
    call that does so is followed by a wrong report. -/
theorem mpu_regions {m0 m : HwMpu} {given : BitVec 32 → MpuRegion}
    (h : Reach (noted mpuStep MpuCall.note) (fun w c => c.Valid w.1 ∧ c.Unmixed w.1)
      (m0, m0.report) (m, given)) :
    (∀ r, m.Has r → (hwMpuRegionGet m r).1 = given r) ∧
    ∀ c m', c.Valid m → mpuStep c m = some m' →
      ((∀ r, m.Has r → (hwMpuRegionGet m' r).1 = c.note m given r) ↔ c.Unmixed m) := by
  have hrun : ∀ r, m.Has r → m.report r = given r := by
    refine h.inv (J := fun w => ∀ r, w.1.Has r → w.1.report r = w.2 r) (fun _ _ => rfl)
      fun w c w' hj hg hs r hr => ?_
    obtain ⟨hs, hgiven⟩ := noted_some hs
    obtain ⟨hhas, hiff⟩ := mpu_step hj hg.1 hs
    rw [hgiven]
    exact hiff.mpr hg.2 r ((hhas r).mp hr)
  exact ⟨hrun, fun c m' hc hs => (mpu_step hrun hc hs).2⟩

instance MpuCall.Valid.decidable (m : HwMpu) : (c : MpuCall) → Decidable (c.Valid m)
  | .setAccess region _ sz attr => inferInstanceAs (Decidable
      (region < hwMpuRegionGetCount m ∧ 4#32 ≤ sz ∧ sz ≤ 30#32 ∧ attr < 8#32))
  | .setEnable region _ => inferInstanceAs (Decidable (region < hwMpuRegionGetCount m))
  | .get region => inferInstanceAs (Decidable (region < hwMpuRegionGetCount m))

instance MpuCall.Unmixed.decidable (m : HwMpu) : (c : MpuCall) → Decidable (c.Unmixed m)
  | .setAccess .. => instDecidableTrue
  | .setEnable region _ => inferInstanceAs (Decidable
      (attrSize m.regionAttr = attrSize (m.attr region) ∧
        attrAccess m.regionAttr = attrAccess (m.attr region)))
  | .get _ => instDecidableTrue

/-- Two regions of one size and access; the one not selected is disabled. -/
theorem mpu_regions_alike :
    let m0 : HwMpu := ⟨0x800#32, 0#32, fun _ => 0#32, fun _ => 0#32⟩
    ∃ m given, Reach (noted mpuStep MpuCall.note) (fun w c => c.Valid w.1 ∧ c.Unmixed w.1)
        (m0, m0.report) (m, given) ∧
      given 0#32 = ⟨0x20000000#32, 1024, 3#32, false⟩ ∧
      given 1#32 = ⟨0x30000000#32, 1024, 3#32, true⟩ ∧
      ∀ r, m.Has r → (hwMpuRegionGet m r).1 = given r := by
  intro m0
  let calls : List MpuCall :=
    [.setAccess 0#32 0x20000000#32 9#32 3#32, .setAccess 1#32 0x30000000#32 9#32 3#32,
      .setEnable 0#32 false]
  have hrun : (runIf (fun w c => decide (c.Valid w.1 ∧ c.Unmixed w.1)) (noted mpuStep MpuCall.note)
      calls (m0, m0.report)).any (fun w => w.2 0#32 = ⟨0x20000000#32, 1024, 3#32, false⟩ ∧
        w.2 1#32 = ⟨0x30000000#32, 1024, 3#32, true⟩) = true := by
    decide +kernel
  obtain ⟨⟨m, given⟩, hr, hp⟩ := exists_of_runIf (fun _ _ hg => of_decide_eq_true hg) hrun
  obtain ⟨h0, h1⟩ := of_decide_eq_true hp
  exact ⟨m, given, hr, h0, h1, (mpu_regions hr).1⟩

/-- **Disabling region 0 gives it the size and access of region 1**, which was set up last. -/
theorem mpu_regions_mixed :
    let m0 : HwMpu := ⟨0x800#32, 0#32, fun _ => 0#32, fun _ => 0#32⟩
    ∃ m given, Reach (noted mpuStep MpuCall.note) (fun w c => c.Valid w.1) (m0, m0.report)
        (m, given) ∧ m.Has 0#32 ∧ given 0#32 = ⟨0x20000000#32, 1024, 3#32, false⟩ ∧
      (hwMpuRegionGet m 0#32).1 = ⟨0x20000000#32, 32, 6#32, false⟩ := by
  intro m0
  let calls : List MpuCall :=
    [.setAccess 0#32 0x20000000#32 9#32 3#32, .setAccess 1#32 0x30000000#32 4#32 6#32,
      .setEnable 0#32 false]
  have hrun : (runIf (fun w c => decide (c.Valid w.1)) (noted mpuStep MpuCall.note)
      calls (m0, m0.report)).any (fun w => 0#32 < hwMpuRegionGetCount w.1 ∧
        w.2 0#32 = ⟨0x20000000#32, 1024, 3#32, false⟩ ∧
        (hwMpuRegionGet w.1 0#32).1 = ⟨0x20000000#32, 32, 6#32, false⟩) = true := by
    decide +kernel
  obtain ⟨⟨m, given⟩, hr, hp⟩ := exists_of_runIf (fun _ _ hg => of_decide_eq_true hg) hrun
  obtain ⟨hhas, h0, hget⟩ := of_decide_eq_true hp
  exact ⟨m, given, hr, hhas, h0, hget⟩

end FxRtos
