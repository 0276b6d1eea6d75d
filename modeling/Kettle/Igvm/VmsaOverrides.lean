/-
The KVM overrides of a VMSA.  CR4 and RFLAGS are fields of eight bytes, of
which one byte each is set: the other seven are measured as the file has them.
-/
import Kettle.Igvm.AlikeDirectives
import Kettle.Igvm.LaunchDigest
import Kettle.Lib.Result

namespace Kettle

namespace Igvm

section Pages

/-- A byte of the CR4 or of the RFLAGS field. -/
def InFields (offset : Nat) : Prop :=
  (0x148 ≤ offset ∧ offset < 0x150) ∨ (0x170 ≤ offset ∧ offset < 0x178)

/-- One of the upper seven bytes of either field. -/
def InUpperBytes (offset : Nat) : Prop :=
  (0x149 ≤ offset ∧ offset < 0x150) ∨ (0x171 ≤ offset ∧ offset < 0x178)

/-- Save areas that differ in these two fields only. -/
structure SameButFields (left right : Bytes) : Prop where
  length : right.length = left.length
  bytes : ∀ offset, ¬ InFields offset → right[offset]? = left[offset]?

def UpperBytesAgree (left right : Bytes) : Prop :=
  ∀ offset, InUpperBytes offset → right[offset]? = left[offset]?

/-- The page that is measured for a save area. -/
def measuredVmsa (vmsa : Bytes) : Bytes :=
  applyKvmVmsaOverrides (vmsa.zeroPad pageSize)

def cr4Of (page : Bytes) : Nat := (page.slice 0x148 8).toNatLE

def rflagsOf (page : Bytes) : Nat := (page.slice 0x170 8).toNatLE

@[simp] theorem length_measuredVmsa (vmsa : Bytes) :
    (measuredVmsa vmsa).length = pageSize := by
  simp [measuredVmsa, applyKvmVmsaOverrides]

theorem getElem?_measuredVmsa (vmsa : Bytes) {offset : Nat}
    (hoffset : offset < pageSize) :
    (measuredVmsa vmsa)[offset]? =
      if offset = 0x170 then some 0x02
      else if offset = 0x148 then some 0x40
      else some (vmsa[offset]?.getD 0) := by
  rw [measuredVmsa, applyKvmVmsaOverrides, List.getElem?_set,
    List.getElem?_set, List.length_set, Bytes.length_zeroPad,
    Bytes.getElem?_zeroPad vmsa hoffset]
  have hcr4 : 0x148 < pageSize := by decide
  have hrflags : 0x170 < pageSize := by decide
  simp only [if_pos hcr4, if_pos hrflags, eq_comm (a := offset)]

theorem InUpperBytes.not_overridden {offset : Nat}
    (hupper : InUpperBytes offset) :
    offset < pageSize ∧ offset ≠ 0x170 ∧ offset ≠ 0x148 := by
  unfold InUpperBytes at hupper
  unfold pageSize
  omega

theorem SameButFields.getElem?_eq {left right : Bytes}
    (hsame : SameButFields left right) (hupper : UpperBytesAgree left right)
    {offset : Nat} (hcr4 : offset ≠ 0x148) (hrflags : offset ≠ 0x170) :
    right[offset]? = left[offset]? := by
  by_cases hinside : InUpperBytes offset
  · exact hupper offset hinside
  · apply hsame.bytes
    unfold InUpperBytes at hinside
    unfold InFields
    omega

/-- Measured pages are the same exactly when the upper bytes are. -/
theorem measuredVmsa_eq_iff {left right : Bytes}
    (hsame : SameButFields left right) :
    measuredVmsa left = measuredVmsa right ↔ UpperBytesAgree left right := by
  constructor
  · intro heq offset hupper
    obtain ⟨hoffset, hrflags, hcr4⟩ := hupper.not_overridden
    have hbyte := congrArg (fun page : Bytes => page[offset]?) heq
    simp only [getElem?_measuredVmsa _ hoffset, if_neg hrflags, if_neg hcr4,
      Option.some.injEq] at hbyte
    by_cases hinside : offset < left.length
    · have hright : offset < right.length := by
        rw [hsame.length]
        exact hinside
      rw [List.getElem?_eq_getElem hinside, List.getElem?_eq_getElem hright]
        at hbyte ⊢
      exact congrArg some hbyte.symm
    · rw [List.getElem?_eq_none (by rw [hsame.length]; omega),
        List.getElem?_eq_none (by omega)]
  · intro hupper
    refine List.ext_getElem? fun offset => ?_
    by_cases hoffset : offset < pageSize
    · rw [getElem?_measuredVmsa left hoffset,
        getElem?_measuredVmsa right hoffset]
      split
      · rfl
      · split
        · rfl
        · rename_i hrflags hcr4
          rw [hsame.getElem?_eq hupper hcr4 hrflags]
    · rw [List.getElem?_eq_none (by rw [length_measuredVmsa]; omega),
        List.getElem?_eq_none (by rw [length_measuredVmsa]; omega)]

/-- A field has the value of its lowest byte when the others are zero. -/
theorem toNatLE_slice_eq_iff {page : Bytes} {start : Nat} {low : UInt8}
    (hlow : page[start]? = some low) :
    (page.slice start 8).toNatLE = low.toNat ↔
      ∀ offset, start + 1 ≤ offset → offset < start + 8 →
        page[offset]?.getD 0 = 0 := by
  have hfirst : page.slice start 1 = [low] := by
    rw [Bytes.slice, List.take_one, List.head?_drop, hlow]
    rfl
  rw [show 8 = 1 + 7 from rfl, Bytes.slice_add, hfirst,
    List.singleton_append, Bytes.toNatLE, Nat.add_eq_left,
    Nat.mul_eq_zero, or_iff_right (by decide), Bytes.toNatLE_eq_zero_iff]
  constructor
  · intro hzero offset hstart hstop
    cases hbyte : page[offset]? with
    | none => rfl
    | some b =>
        refine hzero b
          (Bytes.mem_slice_iff.mpr ⟨offset - (start + 1), ?_, ?_⟩)
        · omega
        · rw [Nat.add_sub_cancel' hstart, hbyte]
  · intro hzero b hb
    obtain ⟨k, hk, hbyte⟩ := Bytes.mem_slice_iff.mp hb
    have hvalue := hzero (start + 1 + k) (by omega) (by omega)
    rwa [hbyte] at hvalue

/-- The measured page carries the two values exactly when the save area has
zeros in the upper bytes. -/
theorem measuredVmsa_carries_iff (vmsa : Bytes) :
    (cr4Of (measuredVmsa vmsa) = 0x40 ∧ rflagsOf (measuredVmsa vmsa) = 0x02) ↔
      ∀ offset, InUpperBytes offset → vmsa[offset]?.getD 0 = 0 := by
  have hcr4 : (measuredVmsa vmsa)[0x148]? = some 0x40 := by
    rw [getElem?_measuredVmsa vmsa (by decide), if_neg (by decide),
      if_pos rfl]
  have hrflags : (measuredVmsa vmsa)[0x170]? = some 0x02 := by
    rw [getElem?_measuredVmsa vmsa (by decide), if_pos rfl]
  have hupper : ∀ offset, InUpperBytes offset →
      (measuredVmsa vmsa)[offset]?.getD 0 = vmsa[offset]?.getD 0 := by
    intro offset hoffset
    obtain ⟨hinside, hnotRflags, hnotCr4⟩ := hoffset.not_overridden
    rw [getElem?_measuredVmsa vmsa hinside, if_neg hnotRflags,
      if_neg hnotCr4]
    rfl
  have hcarries := and_congr (toNatLE_slice_eq_iff hcr4)
    (toNatLE_slice_eq_iff hrflags)
  refine hcarries.trans ⟨?_, ?_⟩
  · rintro ⟨hzeroCr4, hzeroRflags⟩ offset hoffset
    rw [← hupper offset hoffset]
    rcases hoffset with hin | hin
    · exact hzeroCr4 offset hin.1 hin.2
    · exact hzeroRflags offset hin.1 hin.2
  · intro hzero
    constructor
    · intro offset hstart hstop
      rw [hupper offset (.inl ⟨hstart, hstop⟩)]
      exact hzero offset (.inl ⟨hstart, hstop⟩)
    · intro offset hstart hstop
      rw [hupper offset (.inr ⟨hstart, hstop⟩)]
      exact hzero offset (.inr ⟨hstart, hstop⟩)

end Pages

section Directives

/-- The same directive, or a context whose save area differs in the two fields
only. -/
inductive SameButVmsaFields :
    IgvmDirectiveHeader → IgvmDirectiveHeader → Prop where
  | same (directive : IgvmDirectiveHeader) :
      SameButVmsaFields directive directive
  | context (context : SnpVpContext) (vmsa : Bytes)
      (hvmsa : SameButFields context.vmsa vmsa) :
      SameButVmsaFields (.snpVpContext context)
        (.snpVpContext { context with vmsa := vmsa })

/-- If the directives are contexts that count, the upper bytes agree. -/
def MeasuredBytesAgree (snpCompat : UInt32)
    (left right : IgvmDirectiveHeader) : Prop :=
  ∀ context context', left = .snpVpContext context →
    right = .snpVpContext context' →
      context.compatibilityMask &&& snpCompat ≠ 0 →
        UpperBytesAgree context.vmsa context'.vmsa

variable {snpCompat : UInt32} {paramAreas : UInt32 → Option UInt64}
  {left right : IgvmDirectiveHeader}

theorem SameButVmsaFields.recordParamArea
    (hsame : SameButVmsaFields left right)
    (areas : UInt32 → Option UInt64) :
    Igvm.recordParamArea areas right = Igvm.recordParamArea areas left := by
  cases hsame <;> rfl

/-- Contexts place nothing before the VMSA tail. -/
theorem SameButVmsaFields.place (hsame : SameButVmsaFields left right)
    (dirIdx : Nat) (placement : Placement) :
    placement.place snpCompat paramAreas dirIdx right =
      placement.place snpCompat paramAreas dirIdx left := by
  cases hsame <;> rfl

theorem SameButVmsaFields.length_vmsaPagesOf
    (hsame : SameButVmsaFields left right) :
    (vmsaPagesOf snpCompat [right]).length =
      (vmsaPagesOf snpCompat [left]).length := by
  cases hsame with
  | same => rfl
  | context context vmsa hvmsa =>
      by_cases hmask : context.compatibilityMask &&& snpCompat = 0
      · simp [vmsaPagesOf, hmask]
      · have hright : vmsaPagesOf snpCompat
            [.snpVpContext { context with vmsa := vmsa }] = [_] :=
          vmsaPagesOf_snpVpContext hmask
        rw [vmsaPagesOf_snpVpContext hmask, hright]
        rfl

theorem SameButVmsaFields.vmsaPagesOf_eq_iff
    (hsame : SameButVmsaFields left right) :
    vmsaPagesOf snpCompat [left] = vmsaPagesOf snpCompat [right] ↔
      MeasuredBytesAgree snpCompat left right := by
  cases hsame with
  | same =>
      refine iff_of_true rfl ?_
      intro context context' hcontext hcontext' _ offset _
      cases hcontext.symm.trans hcontext'
      rfl
  | context context vmsa hvmsa =>
      by_cases hmask : context.compatibilityMask &&& snpCompat = 0
      · refine iff_of_true (by simp [vmsaPagesOf, hmask]) ?_
        rintro _ _ ⟨⟩ - hcounts
        exact absurd hmask hcounts
      · have hright : vmsaPagesOf snpCompat
            [.snpVpContext { context with vmsa := vmsa }] =
              [⟨snpPageTypeVmsa, vmsaGpa, some (measuredVmsa vmsa)⟩] :=
          vmsaPagesOf_snpVpContext hmask
        have hpage : [context.measured] =
            [⟨snpPageTypeVmsa, vmsaGpa, some (measuredVmsa vmsa)⟩] ↔
              measuredVmsa context.vmsa = measuredVmsa vmsa := by
          simp [SnpVpContext.measured, measuredVmsa]
        rw [vmsaPagesOf_snpVpContext hmask, hright, hpage,
          measuredVmsa_eq_iff hvmsa]
        constructor
        · rintro hupper _ _ ⟨⟩ ⟨⟩ -
          exact hupper
        · intro hagree
          exact hagree _ _ rfl rfl hmask

variable (sha384 : Bytes → Digest384)

/-- Whether a directive is an error does not depend on save areas or on the
state. -/
theorem SameButVmsaFields.measureDirective_error_iff
    (hsame : SameButVmsaFields left right) (dirIdx : Nat)
    (state state' : MeasureState) (e : String) :
    measureDirective sha384 snpCompat paramAreas dirIdx state left =
        .error e ↔
      measureDirective sha384 snpCompat paramAreas dirIdx state' right =
        .error e := by
  cases hsame with
  | same =>
      cases left with
      | pageData page | snpVpContext context =>
          simp only [measureDirective]
          split <;> simp
      | parameterInsert insert =>
          simp only [measureDirective]
          split
          · simp
          · split <;> simp
      | _ => simp [measureDirective]
  | context context vmsa hvmsa =>
      simp only [measureDirective]
      split <;> simp

end Directives

section Lists

variable {snpCompat : UInt32} {paramAreas : UInt32 → Option UInt64}
  {directives directives' : List IgvmDirectiveHeader}

theorem placeAll_sameBut
    (hsame : List.Forall₂ SameButVmsaFields directives directives')
    (dirIdx : Nat) (placement : Placement) :
    placement.placeAll snpCompat paramAreas dirIdx directives' =
      placement.placeAll snpCompat paramAreas dirIdx directives := by
  induction hsame generalizing dirIdx placement with
  | nil => rfl
  | cons hhead _ ih =>
      rw [Placement.placeAll, Placement.placeAll, hhead.place, ih]

theorem length_vmsaPagesOf_sameBut
    (hsame : List.Forall₂ SameButVmsaFields directives directives') :
    (vmsaPagesOf snpCompat directives').length =
      (vmsaPagesOf snpCompat directives).length := by
  induction hsame with
  | nil => rfl
  | @cons left right rest rest' hhead _ ih =>
      rw [vmsaPagesOf_cons left, vmsaPagesOf_cons right, List.length_append,
        List.length_append, hhead.length_vmsaPagesOf, ih]

/-- The VMSA tails are the same exactly when the upper bytes agree. -/
theorem vmsaPagesOf_eq_iff
    (hsame : List.Forall₂ SameButVmsaFields directives directives') :
    vmsaPagesOf snpCompat directives = vmsaPagesOf snpCompat directives' ↔
      List.Forall₂ (MeasuredBytesAgree snpCompat) directives directives' := by
  induction hsame with
  | nil => exact iff_of_true rfl .nil
  | @cons left right rest rest' hhead _ ih =>
      rw [vmsaPagesOf_cons left, vmsaPagesOf_cons right, List.forall₂_cons,
        ← hhead.vmsaPagesOf_eq_iff, ← ih]
      constructor
      · intro heq
        exact List.append_inj heq hhead.length_vmsaPagesOf.symm
      · rintro ⟨hfirst, hrest⟩
        rw [hfirst, hrest]

variable (sha384 : Bytes → Digest384)

theorem measureDirectives_error_iff
    (hsame : List.Forall₂ SameButVmsaFields directives directives')
    (dirIdx : Nat) (state state' : MeasureState) (e : String) :
    measureDirectives sha384 snpCompat paramAreas dirIdx state directives =
        .error e ↔
      measureDirectives sha384 snpCompat paramAreas dirIdx state'
        directives' = .error e := by
  induction hsame generalizing dirIdx state state' with
  | nil => simp [measureDirectives]
  | @cons left right rest rest' hhead _ ih =>
      have herror := @SameButVmsaFields.measureDirective_error_iff snpCompat
        paramAreas left right sha384 hhead dirIdx state state'
      rw [measureDirectives, measureDirectives]
      cases hleft : measureDirective sha384 snpCompat paramAreas dirIdx state
          left with
      | error message =>
          rw [(herror message).mp hleft]
          rfl
      | ok next =>
          cases hright : measureDirective sha384 snpCompat paramAreas dirIdx
              state' right with
          | error message =>
              rw [(herror message).mpr hright] at hleft
              cases hleft
          | ok next' => exact ih (dirIdx + 1) next next'

end Lists

section Files

/-- Files that differ in the CR4 and RFLAGS fields of their VMSAs only. -/
structure IgvmFile.SameButFields (left right : IgvmFile) : Prop where
  platforms : right.platforms = left.platforms
  initializations : right.initializations = left.initializations
  directives :
    List.Forall₂ SameButVmsaFields left.directives right.directives

/-- Every VMSA that is measured has the same upper bytes in both files. -/
def IgvmFile.UpperBytesAgree (left right : IgvmFile) : Prop :=
  List.Forall₂ (MeasuredBytesAgree left.snpCompat) left.directives
    right.directives

variable {sha384 : Bytes → Digest384} {left right : IgvmFile}

theorem IgvmFile.SameButFields.snpCompat (hsame : left.SameButFields right) :
    right.snpCompat = left.snpCompat := by
  rw [IgvmFile.snpCompat, IgvmFile.snpCompat, hsame.platforms]

theorem IgvmFile.SameButFields.collectParamAreas
    (hsame : left.SameButFields right) :
    Igvm.collectParamAreas right = Igvm.collectParamAreas left :=
  foldl_recordParamArea_forall₂ SameButVmsaFields.recordParamArea
    hsame.directives _

/-- Both files fail to be measured with the same message, or neither does. -/
theorem IgvmFile.SameButFields.measureSnp_error_iff
    (hsame : left.SameButFields right) (e : String) :
    measureSnp sha384 left = .error e ↔
      measureSnp sha384 right = .error e := by
  have hcompat : findSnpCompat right = findSnpCompat left := by
    rw [findSnpCompat, findSnpCompat, hsame.platforms]
  unfold measureSnp
  rw [hcompat, hsame.collectParamAreas]
  cases findSnpCompat left with
  | error message => rfl
  | ok snpCompat =>
      have herror := @measureDirectives_error_iff snpCompat
        (Igvm.collectParamAreas left) _ _ sha384 hsame.directives 0 .initial
        .initial
      simp only [ok_bind]
      cases hleft : measureDirectives sha384 snpCompat
          (Igvm.collectParamAreas left) 0 .initial left.directives with
      | error message =>
          rw [(herror message).mp hleft]
      | ok state =>
          cases hright : measureDirectives sha384 snpCompat
              (Igvm.collectParamAreas left) 0 .initial right.directives with
          | error message =>
              rw [(herror message).mpr hright] at hleft
              cases hleft
          | ok state' => simp

/-- The same pages are measured in both files, up to the VMSA tail. -/
theorem IgvmFile.SameButFields.measuredSequence_eq_iff
    (hsame : left.SameButFields right) :
    measuredSequence left = measuredSequence right ↔
      left.UpperBytesAgree right := by
  rw [measuredSequence, measuredSequence, hsame.snpCompat,
    hsame.collectParamAreas, placeAll_sameBut hsame.directives,
    List.append_cancel_left_eq, vmsaPagesOf_eq_iff hsame.directives]
  rfl

theorem IgvmFile.SameButFields.measuredResult_eq
    (hsame : left.SameButFields right) (hagree : left.UpperBytesAgree right) :
    measuredResult sha384 left = measuredResult sha384 right := by
  have hsequence := hsame.measuredSequence_eq_iff.mpr hagree
  simp only [measuredResult, hsequence, hsame.snpCompat,
    length_vmsaPagesOf_sameBut hsame.directives]

/-- Whatever the hash, the results are the same when neither file can be
measured or the upper bytes of all measured VMSAs agree. -/
theorem IgvmFile.SameButFields.measureSnp_eq
    (hsame : left.SameButFields right)
    (hagree : left.HasSnpPlatform → left.InsertsDeclared →
      left.UpperBytesAgree right) :
    measureSnp sha384 left = measureSnp sha384 right := by
  cases hleft : measureSnp sha384 left with
  | error e => exact (hsame.measureSnp_error_iff e |>.mp hleft).symm
  | ok leftResult =>
      obtain ⟨hplat, hdeclared⟩ := (measureSnp_ok_iff left).mp ⟨_, hleft⟩
      cases hright : measureSnp sha384 right with
      | error e =>
          rw [(hsame.measureSnp_error_iff e).mpr hright] at hleft
          cases hleft
      | ok rightResult =>
          rw [measureSnp_eq_measuredResult hleft,
            measureSnp_eq_measuredResult hright,
            hsame.measuredResult_eq (hagree hplat hdeclared)]

/-- The results are the same exactly when neither file can be measured or the
upper bytes of all measured VMSAs agree. -/
theorem IgvmFile.SameButFields.measureSnp_eq_iff
    (hsame : left.SameButFields right)
    (hfree : HashChain.CollisionFreeOn sha384 zeros48
      (hashedInputs sha384 left ∪ hashedInputs sha384 right)) :
    measureSnp sha384 left = measureSnp sha384 right ↔
      (left.HasSnpPlatform → left.InsertsDeclared →
        left.UpperBytesAgree right) := by
  refine ⟨fun heq hplat hdeclared => ?_, hsame.measureSnp_eq⟩
  obtain ⟨result, hleft⟩ : ∃ result, measureSnp sha384 left = .ok result :=
    (measureSnp_ok_iff left).mpr ⟨hplat, hdeclared⟩
  have hright := heq.symm.trans hleft
  exact hsame.measuredSequence_eq_iff.mp
    (measuredSequence_eq_of_digest_eq hleft hright hfree rfl)

end Files

section Samples

/-- A stand-in for SHA-384 that keeps the bytes of a page from CR4 on, and the
CONTENTS field of a PAGE_INFO. -/
def fieldDigest (bytes : Bytes) : Digest384 :=
  1 ::ᵥ Bytes.zeroPadVec 47
    (bytes.drop (if bytes.length = 0x70 then 0x30 else 0x148))

/-- A save area with the two lowest bytes of CR4. -/
def cr4Vmsa (low high : UInt8) : Bytes :=
  ((List.replicate pageSize 0).set 0x148 low).set 0x149 high

def cr4File (low high : UInt8) : IgvmFile where
  platforms := [⟨2, 2, .sevSnp, 1, 0⟩]
  initializations := []
  directives := [.snpVpContext ⟨vmsaGpa, 2, 0, cr4Vmsa low high⟩]

variable {low low' high high' : UInt8}

theorem cr4Vmsa_sameButFields :
    SameButFields (cr4Vmsa low high) (cr4Vmsa low' high') where
  length := by simp [cr4Vmsa]
  bytes := by
    intro offset hoffset
    unfold InFields at hoffset
    unfold cr4Vmsa
    rw [List.getElem?_set_ne (by omega), List.getElem?_set_ne (by omega),
      List.getElem?_set_ne (by omega), List.getElem?_set_ne (by omega)]

theorem cr4File_sameButFields :
    (cr4File low high).SameButFields (cr4File low' high') where
  platforms := rfl
  initializations := rfl
  directives := .cons (.context _ _ cr4Vmsa_sameButFields) .nil

theorem getElem?_cr4Vmsa_high : (cr4Vmsa low high)[0x149]? = some high := by
  unfold cr4Vmsa
  rw [List.getElem?_set_self]
  rw [List.length_set, List.length_replicate]
  decide

theorem getElem?_cr4Vmsa_low : (cr4Vmsa low high)[0x148]? = some low := by
  unfold cr4Vmsa
  rw [List.getElem?_set_ne (by decide), List.getElem?_set_self]
  rw [List.length_replicate]
  decide

theorem cr4Vmsa_upperBytesAgree_iff :
    UpperBytesAgree (cr4Vmsa low high) (cr4Vmsa low' high') ↔
      high' = high := by
  constructor
  · intro hagree
    have hbyte := hagree 0x149 (.inl ⟨by decide, by decide⟩)
    rw [getElem?_cr4Vmsa_high, getElem?_cr4Vmsa_high] at hbyte
    exact Option.some.inj hbyte
  · rintro rfl offset hoffset
    unfold InUpperBytes at hoffset
    by_cases hhigh : 0x149 = offset
    · subst hhigh
      rw [getElem?_cr4Vmsa_high, getElem?_cr4Vmsa_high]
    · unfold cr4Vmsa
      rw [List.getElem?_set_ne hhigh, List.getElem?_set_ne (by omega),
        List.getElem?_set_ne hhigh, List.getElem?_set_ne (by omega)]

theorem cr4File_measurable :
    (cr4File low high).HasSnpPlatform ∧ (cr4File low high).InsertsDeclared :=
  ⟨⟨⟨2, 2, .sevSnp, 1, 0⟩, List.mem_cons_self, rfl⟩,
    fun insert hmem => by simp [cr4File] at hmem⟩

theorem cr4File_counts :
    (2 : UInt32) &&& (cr4File low high).snpCompat ≠ 0 := by
  have hcompat : (cr4File low high).snpCompat = 2 := rfl
  rw [hcompat]
  decide

theorem cr4File_upperBytesAgree_iff :
    (cr4File low high).UpperBytesAgree (cr4File low' high') ↔
      high' = high := by
  rw [← @cr4Vmsa_upperBytesAgree_iff low low' high high']
  constructor
  · intro hagree
    exact (List.forall₂_cons.mp hagree).1 _ _ rfl rfl cr4File_counts
  · intro hagree
    refine .cons ?_ .nil
    rintro _ _ ⟨⟩ ⟨⟩ -
    exact hagree

theorem measuredSequence_cr4File :
    measuredSequence (cr4File low high) =
      [⟨snpPageTypeVmsa, vmsaGpa, some (measuredVmsa (cr4Vmsa low high))⟩] :=
  vmsaPagesOf_snpVpContext cr4File_counts

theorem getElem?_fieldDigest (bytes : Bytes) {k : Nat} (hk : k < 47) :
    (fieldDigest bytes).toList[k + 1]? = some (bytes[(if bytes.length = 0x70
      then 0x30 else 0x148) + k]?.getD 0) := by
  rw [fieldDigest, List.Vector.toList_cons, List.getElem?_cons_succ,
    Bytes.zeroPadVec_toList, Bytes.getElem?_zeroPad _ hk, List.getElem?_drop]

theorem getElem?_fieldDigest_page (vmsa : Bytes) {k : Nat} (hk : k < 47) :
    (fieldDigest (measuredVmsa vmsa)).toList[k + 1]? =
      some ((measuredVmsa vmsa)[0x148 + k]?.getD 0) := by
  rw [getElem?_fieldDigest _ hk, length_measuredVmsa, if_neg (by decide)]

/-- Of a PAGE_INFO the digest keeps the contents. -/
theorem getElem?_fieldDigest_frame (ld : Digest384) (entry : PageEntry)
    {k : Nat} (hk : k < 47) :
    (fieldDigest (entry.frame ld)).toList[k + 1]? =
      some (entry.contents.toList[k]?.getD 0) := by
  have hlength : (entry.frame ld).length = 0x70 := by
    simp [PageEntry.frame, pageInfo]
  have hcontents : (entry.frame ld)[0x30 + k]? =
      entry.contents.toList[k]? := by
    have hld : ld.toList.length = 0x30 := ld.toList_length
    have hentry : entry.contents.toList.length = 48 :=
      entry.contents.toList_length
    simp only [PageEntry.frame, pageInfo, List.append_assoc]
    rw [List.getElem?_append_right (by omega), hld, Nat.add_sub_cancel_left,
      List.getElem?_append_left (by omega)]
  rw [getElem?_fieldDigest _ hk, hlength, if_pos rfl, hcontents]

/-- The second byte of a digest tells a page from its PAGE_INFO, the third or
the fourth is the upper byte of CR4. -/
theorem fieldDigest_of_mem {input : Bytes}
    (hinput : input ∈ hashedInputs fieldDigest (cr4File low high)) :
    ((fieldDigest input).toList[1]? = some 0x40 ∧
        (fieldDigest input).toList[2]? = some high ∧
        input = measuredVmsa (cr4Vmsa low high)) ∨
      ((fieldDigest input).toList[1]? = some 1 ∧
        (fieldDigest input).toList[3]? = some high ∧
        input = PageEntry.frame zeros48
          ⟨fieldDigest (measuredVmsa (cr4Vmsa low high)), snpPageTypeVmsa,
            vmsaGpa⟩) := by
  have hpageHigh :
      (fieldDigest (measuredVmsa (cr4Vmsa low high))).toList[2]? =
        some high := by
    rw [getElem?_fieldDigest_page _ (by decide),
      getElem?_measuredVmsa _ (by decide), if_neg (by decide),
      if_neg (by decide), getElem?_cr4Vmsa_high]
    rfl
  rw [hashedInputs, measuredSequence_cr4File] at hinput
  rcases hinput with ⟨page, hpage, hcontents⟩ | hblock
  · rw [List.mem_singleton.mp hpage] at hcontents
    cases hcontents
    refine .inl ⟨?_, hpageHigh, rfl⟩
    rw [getElem?_fieldDigest_page _ (by decide),
      getElem?_measuredVmsa _ (by decide), if_neg (by decide), if_pos rfl]
    rfl
  · rw [List.mem_singleton.mp hblock]
    refine .inr ⟨?_, ?_, rfl⟩
    · rw [getElem?_fieldDigest_frame _ _ (by decide)]
      rfl
    · rw [getElem?_fieldDigest_frame _ _ (by decide)]
      exact congrArg (fun byte : Option UInt8 => some (byte.getD 0)) hpageHigh

theorem fieldDigest_injOn {left right : Bytes}
    (hleft : left ∈ hashedInputs fieldDigest (cr4File low high))
    (hright : right ∈ hashedInputs fieldDigest (cr4File low' high'))
    (heq : fieldDigest left = fieldDigest right) : left = right := by
  have hpages : high' = high → measuredVmsa (cr4Vmsa low high) =
      measuredVmsa (cr4Vmsa low' high') := fun hhigh =>
    (measuredVmsa_eq_iff cr4Vmsa_sameButFields).mpr
      (cr4Vmsa_upperBytesAgree_iff.mpr hhigh)
  have hdistinct : (some 0x40 : Option UInt8) ≠ some 1 := by decide
  rcases fieldDigest_of_mem hleft with ⟨hl, hlHigh, rfl⟩ |
      ⟨hl, hlHigh, rfl⟩ <;>
    rcases fieldDigest_of_mem hright with ⟨hr, hrHigh, rfl⟩ |
      ⟨hr, hrHigh, rfl⟩
  · rw [heq, hrHigh] at hlHigh
    exact hpages (Option.some.inj hlHigh)
  · rw [heq, hr] at hl
    exact absurd hl.symm hdistinct
  · rw [heq, hr] at hl
    exact absurd hl hdistinct
  · rw [heq, hrHigh] at hlHigh
    rw [hpages (Option.some.inj hlHigh)]

theorem cr4File_collisionFree :
    HashChain.CollisionFreeOn fieldDigest zeros48
      (hashedInputs fieldDigest (cr4File low high) ∪
        hashedInputs fieldDigest (cr4File low' high')) where
  injOn := by
    intro left hleft right hright heq
    rcases hleft with hleft | hleft <;> rcases hright with hright | hright <;>
      exact fieldDigest_injOn hleft hright heq
  ne_avoid := by
    intro input _ heq
    have hhead : (1 : UInt8) = 0 := congrArg List.Vector.head heq
    exact absurd hhead (by decide)

end Samples

section Overrides

variable {sha384 : Bytes → Digest384} {left right : IgvmFile}

/-- Two files with other CR4 or RFLAGS fields have the same result, whatever the
hash, when neither can be measured or the upper bytes of all measured VMSAs
agree, and under a hash without collisions only then; and a measured VMSA
carries the values that KVM sets exactly when these bytes are zero in the
file. -/
theorem measureSnp_overrides_iff (hsame : left.SameButFields right) :
    ((left.HasSnpPlatform → left.InsertsDeclared →
        left.UpperBytesAgree right) →
      measureSnp sha384 left = measureSnp sha384 right) ∧
    (HashChain.CollisionFreeOn sha384 zeros48
        (hashedInputs sha384 left ∪ hashedInputs sha384 right) →
      (measureSnp sha384 left = measureSnp sha384 right ↔
        (left.HasSnpPlatform → left.InsertsDeclared →
          left.UpperBytesAgree right))) ∧
    ∀ context : SnpVpContext, ∀ page ∈ context.measured.contents,
      (cr4Of page = 0x40 ∧ rflagsOf page = 0x02) ↔
        ∀ offset, InUpperBytes offset → context.vmsa[offset]?.getD 0 = 0 := by
  refine ⟨hsame.measureSnp_eq, hsame.measureSnp_eq_iff, ?_⟩
  intro context page hpage
  cases hpage
  exact measuredVmsa_carries_iff context.vmsa

/-- The lowest byte of CR4 is overridden, the second one is not. -/
theorem measureSnp_overrides_cr4File :
    cr4File 0 0 ≠ cr4File 0x68 0 ∧
      measureSnp fieldDigest (cr4File 0 0) =
        measureSnp fieldDigest (cr4File 0x68 0) ∧
      measureSnp fieldDigest (cr4File 0 0) ≠
        measureSnp fieldDigest (cr4File 0x68 6) := by
  refine ⟨?_, ?_, ?_⟩
  · intro heq
    have hvmsa : cr4Vmsa 0 0 = cr4Vmsa 0x68 0 := by
      simpa only [cr4File, IgvmFile.mk.injEq, List.cons.injEq,
        IgvmDirectiveHeader.snpVpContext.injEq, SnpVpContext.mk.injEq,
        true_and, and_true] using heq
    have hlow := congrArg (fun vmsa : Bytes => vmsa[0x148]?) hvmsa
    simp only [getElem?_cr4Vmsa_low] at hlow
    exact absurd hlow (by decide)
  · exact (measureSnp_overrides_iff cr4File_sameButFields).1 fun _ _ =>
      cr4File_upperBytesAgree_iff.mpr rfl
  · intro heq
    have hagree := ((measureSnp_overrides_iff cr4File_sameButFields).2.1
      cr4File_collisionFree).mp heq cr4File_measurable.1 cr4File_measurable.2
    exact absurd (cr4File_upperBytesAgree_iff.mp hagree) (by decide)

/-- Its second byte is measured as the file has it, whatever the hash. -/
theorem measureSnp_measures_cr4 :
    (cr4File 0 0).SameButFields (cr4File 0 6) ∧
      measureSnp fieldDigest (cr4File 0 0) ≠
        measureSnp fieldDigest (cr4File 0 6) ∧
      ¬ ∃ sha384, HashChain.CollisionFreeOn sha384 zeros48
          (hashedInputs sha384 (cr4File 0 0) ∪
            hashedInputs sha384 (cr4File 0 6)) ∧
        measureSnp sha384 (cr4File 0 0) =
          measureSnp sha384 (cr4File 0 6) := by
  have hsame : (cr4File 0 0).SameButFields (cr4File 0 6) :=
    cr4File_sameButFields
  have hdiffers : ∀ sha384, HashChain.CollisionFreeOn sha384 zeros48
      (hashedInputs sha384 (cr4File 0 0) ∪
        hashedInputs sha384 (cr4File 0 6)) →
      measureSnp sha384 (cr4File 0 0) ≠ measureSnp sha384 (cr4File 0 6) := by
    intro sha384 hfree heq
    have hagree := (hsame.measureSnp_eq_iff hfree).mp heq
      cr4File_measurable.1 cr4File_measurable.2
    exact absurd (cr4File_upperBytesAgree_iff.mp hagree) (by decide)
  refine ⟨hsame, hdiffers fieldDigest cr4File_collisionFree, ?_⟩
  rintro ⟨sha384, hfree, heq⟩
  exact hdiffers sha384 hfree heq

end Overrides

end Igvm

end Kettle
