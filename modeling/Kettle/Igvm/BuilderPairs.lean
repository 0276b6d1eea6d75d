/-
Two builders that go through the same operations after different contexts:
their directives stay equal up to the mask of the platforms.
-/
import Kettle.Igvm.AlikeDirectives
import Kettle.Igvm.BuildOps

namespace Kettle

namespace Igvm

section Remask

/-- Equal up to the mask of the builder that added the directive. -/
inductive Remasked (mask mask' : UInt32) :
    IgvmDirectiveHeader → IgvmDirectiveHeader → Prop where
  | same (directive : IgvmDirectiveHeader) :
      Remasked mask mask' directive directive
  | page (page : PageData) (hmask : page.compatibilityMask = mask) :
      Remasked mask mask' (.pageData page)
        (.pageData { page with compatibilityMask := mask' })
  | insert (insert : IgvmParameterInsert)
      (hmask : insert.compatibilityMask = mask) :
      Remasked mask mask' (.parameterInsert insert)
        (.parameterInsert { insert with compatibilityMask := mask' })

variable {mask mask' : UInt32} {left right : IgvmDirectiveHeader}

theorem Remasked.eq (hremasked : Remasked mask mask left right) :
    right = left := by
  cases hremasked with
  | same => rfl
  | page page hmask => rw [← hmask]
  | insert insert hmask => rw [← hmask]

theorem eq_of_remasked {rest rest' : List IgvmDirectiveHeader}
    (hremasked : List.Forall₂ (Remasked mask mask) rest rest') :
    rest' = rest := by
  have hsame := hremasked.imp fun _ _ h => h.eq.symm
  rw [List.forall₂_eq_eq_eq] at hsame
  exact hsame.symm

theorem Remasked.alike {snpCompat : UInt32}
    (hmask : mask &&& snpCompat ≠ 0) (hmask' : mask' &&& snpCompat ≠ 0)
    (hremasked : Remasked mask mask' left right) :
    AlikeFor snpCompat left right := by
  cases hremasked with
  | same => exact .same _
  | page page hpage => exact .page page mask' (by rwa [hpage]) hmask'
  | insert insert hinsert =>
      exact .insert insert mask' (by rwa [hinsert]) hmask'

theorem Remasked.sortGpa (hremasked : Remasked mask mask' left right) :
    Builder.sortGpa left = Builder.sortGpa right := by
  cases hremasked <;> rfl

theorem Remasked.keeps (hremasked : Remasked mask mask' left right)
    (op : BuilderOp) : op.keeps right = op.keeps left := by
  cases hremasked with
  | same => rfl
  | page page hmask => cases op <;> rfl
  | insert insert hmask => cases op <;> rfl

theorem remasked_refl (directives : List IgvmDirectiveHeader) :
    List.Forall₂ (Remasked mask mask') directives directives :=
  List.forall₂_same.mpr fun d _ => .same d

theorem remasked_dataPages (base : Nat) (data : Bytes)
    (flags : IgvmPageDataFlags) :
    List.Forall₂ (Remasked mask mask')
      ((Builder.dataPages base data mask flags).map .pageData)
      ((Builder.dataPages base data mask' flags).map .pageData) := by
  simp only [Builder.dataPages, List.forall₂_map_left_iff,
    List.forall₂_map_right_iff, List.forall₂_same]
  exact fun pg _ => .page _ rfl

theorem remasked_igvmParams (ovmfmeta : OvmfMeta) :
    List.Forall₂ (Remasked mask mask')
      (Builder.igvmParams ovmfmeta mask)
      (Builder.igvmParams ovmfmeta mask') := by
  unfold Builder.igvmParams
  cases ovmfmeta.regions.find? (fun r => r.etype = .igvmParamArea) with
  | none => exact .nil
  | some area =>
      exact List.rel_append (remasked_refl _) (.cons (.insert _ rfl) .nil)

end Remask

section Operations

namespace BuilderOp

/-- The operations that `build` calls once the contexts are there. -/
def AfterContexts : BuilderOp → Prop
  | addNativePlatform => False
  | addSnpPlatform => False
  | addNativeContext _ => False
  | addSnpVmsaContext _ _ _ => False
  | addIgvmParamInsert _ _ => False
  | _ => True

variable {op : BuilderOp} (crate : IgvmCrate)

theorem keeps_of_isContext {d : IgvmDirectiveHeader}
    (hcontext : d.isContext = true) : op.keeps d = true := by
  cases op with
  | removePageDataInRange base size =>
      cases d with
      | pageData page => cases hcontext
      | _ => rfl
  | _ => rfl

theorem compatibilityMaskAll_apply (hafter : op.AfterContexts)
    (builder : Builder) :
    (op.apply crate builder).compatibilityMaskAll =
      builder.compatibilityMaskAll := by
  cases op with
  | addOvmfSnpPages ovmfmeta =>
      rw [apply, Builder.addOvmfSnpPages_eq]
      rfl
  | addOvmfIgvmParams ovmfmeta =>
      rw [apply, Builder.addOvmfIgvmParams_eq]
      rfl
  | addNativePlatform | addSnpPlatform | addNativeContext regs
  | addSnpVmsaContext regs debug vpIndex | addIgvmParamInsert index gpa =>
      exact hafter.elim
  | _ => rfl

theorem platforms_apply (hafter : op.AfterContexts) (builder : Builder) :
    (op.apply crate builder).platforms = builder.platforms := by
  cases op with
  | addOvmfSnpPages ovmfmeta =>
      rw [apply, Builder.addOvmfSnpPages_eq]
      rfl
  | addOvmfIgvmParams ovmfmeta =>
      rw [apply, Builder.addOvmfIgvmParams_eq]
      rfl
  | addNativePlatform | addSnpPlatform | addNativeContext regs
  | addSnpVmsaContext regs debug vpIndex | addIgvmParamInsert index gpa =>
      exact hafter.elim
  | _ => rfl

/-- The headers that an operation adds do not depend on the builder. -/
theorem initializations_apply (hafter : op.AfterContexts)
    {left right : Builder}
    (hsame : right.initializations = left.initializations) :
    (op.apply crate right).initializations =
      (op.apply crate left).initializations := by
  cases op with
  | addOvmfSnpPages ovmfmeta =>
      rw [apply, apply, Builder.addOvmfSnpPages_eq,
        Builder.addOvmfSnpPages_eq]
      exact hsame
  | addOvmfIgvmParams ovmfmeta =>
      rw [apply, apply, Builder.addOvmfIgvmParams_eq,
        Builder.addOvmfIgvmParams_eq]
      exact hsame
  | addSnpPolicy policy =>
      simp only [apply, Builder.addSnpPolicyOr, hsame]
  | addNativePlatform | addSnpPlatform | addNativeContext regs
  | addSnpVmsaContext regs debug vpIndex | addIgvmParamInsert index gpa =>
      exact hafter.elim
  | _ => exact hsame

/-- What an operation adds to two builders differs in their masks only. -/
theorem adds_remasked (hafter : op.AfterContexts) (left right : Builder) :
    List.Forall₂ (Remasked left.compatibilityMaskAll
        right.compatibilityMaskAll)
      (op.adds crate left) (op.adds crate right) := by
  cases op with
  | addOvmfSnpPages ovmfmeta =>
      simp only [adds, apply, Builder.addOvmfSnpPages_eq]
      exact remasked_refl _
  | addOvmfIgvmParams ovmfmeta =>
      simp only [adds, apply, Builder.addOvmfIgvmParams_eq]
      exact remasked_igvmParams ovmfmeta
  | addEmptyNormalPages base size =>
      simp only [adds, apply, Builder.addEmptyNormalPages,
        Builder.addEmptyPages, Builder.directives_push, List.nil_append,
        List.forall₂_map_left_iff, List.forall₂_map_right_iff,
        List.forall₂_same]
      exact fun pg _ => .page _ rfl
  | addDataPagesFlags base data flags =>
      exact remasked_dataPages base data flags
  | addDataPages base data => exact remasked_dataPages base data {}
  | addDataPagesUnmeasured base data => exact remasked_dataPages base data _
  | addFirmware4g firmware => exact remasked_dataPages _ firmware {}
  | addFirmware1m firmware => exact remasked_dataPages _ _ {}
  | addUefivars uefivars fwsize => exact remasked_dataPages _ uefivars {}
  | addNativePlatform | addSnpPlatform | addNativeContext regs
  | addSnpVmsaContext regs debug vpIndex | addIgvmParamInsert index gpa =>
      exact hafter.elim
  | _ => exact remasked_refl _

theorem adds_not_isContext (hafter : op.AfterContexts) (builder : Builder) :
    ∀ d ∈ op.adds crate builder, d.isContext = false := by
  have hpages : ∀ pages : List PageData,
      ∀ d ∈ pages.map IgvmDirectiveHeader.pageData, d.isContext = false := by
    intro pages d hd
    obtain ⟨page, -, rfl⟩ := List.mem_map.mp hd
    rfl
  cases op with
  | addOvmfSnpPages ovmfmeta =>
      simp only [adds, apply, Builder.addOvmfSnpPages_eq,
        Builder.directives_push, List.nil_append, ← List.map_flatMap]
      exact hpages _
  | addOvmfIgvmParams ovmfmeta =>
      simp only [adds, apply, Builder.addOvmfIgvmParams_eq,
        Builder.directives_push, List.nil_append]
      intro d hd
      have hparam := Builder.isParam_of_mem_igvmParams hd
      cases d with
      | snpVpContext context => cases hparam
      | x64NativeVpContext mask index context => cases hparam
      | _ => rfl
  | addEmptyPages base size compatibilityMask dataType
  | addEmptyNormalPages base size =>
      intro d hd
      obtain ⟨pg, -, rfl⟩ := List.mem_map.mp hd
      rfl
  | addDataPagesFlags base data flags => exact hpages _
  | addDataPages base data => exact hpages _
  | addDataPagesUnmeasured base data => exact hpages _
  | addFirmware4g firmware => exact hpages _
  | addFirmware1m firmware => exact hpages _
  | addUefivars uefivars fwsize => exact hpages _
  | removePageDataInRange base size | addSnpPolicy policy =>
      intro d hd
      cases hd
  | addIgvmParamArea index bytes | addIgvmParamMemmap index offset
  | addIgvmParamVpcount index offset =>
      intro d hd
      rw [List.mem_singleton.mp hd]
      rfl
  | addNativePlatform | addSnpPlatform | addNativeContext regs
  | addSnpVmsaContext regs debug vpIndex | addIgvmParamInsert index gpa =>
      exact hafter.elim

end BuilderOp

end Operations

section Pairs

/-- Two builders with contexts of their own in front, and behind them the same
directives up to the mask. -/
structure Builder.Pair (front front' : List IgvmDirectiveHeader)
    (left right : Builder) : Prop where
  split : ∃ rest rest', left.directives = front ++ rest ∧
    right.directives = front' ++ rest' ∧
    List.Forall₂ (Remasked left.compatibilityMaskAll
      right.compatibilityMaskAll) rest rest' ∧
    ∀ d ∈ rest, d.isContext = false
  initializations : right.initializations = left.initializations

variable {front front' : List IgvmDirectiveHeader} {left right : Builder}

theorem filter_keeps_contexts (op : BuilderOp)
    (hfront : ∀ d ∈ front, d.isContext = true) :
    front.filter op.keeps = front :=
  List.filter_eq_self.mpr fun d hd =>
    BuilderOp.keeps_of_isContext (hfront d hd)

/-- An operation behind the contexts keeps a pair. -/
theorem Builder.Pair.apply (crate : IgvmCrate)
    (hfront : ∀ d ∈ front, d.isContext = true)
    (hfront' : ∀ d ∈ front', d.isContext = true)
    (hpair : Pair front front' left right) {op : BuilderOp}
    (hafter : op.AfterContexts) :
    Pair front front' (op.apply crate left) (op.apply crate right) := by
  obtain ⟨rest, rest', hleft, hright, hrest, hnone⟩ := hpair.split
  refine ⟨⟨rest.filter op.keeps ++ op.adds crate left,
    rest'.filter op.keeps ++ op.adds crate right, ?_, ?_, ?_, ?_⟩,
    BuilderOp.initializations_apply crate hafter hpair.initializations⟩
  · rw [op.directives_apply, hleft, List.filter_append,
      filter_keeps_contexts op hfront, List.append_assoc]
  · rw [op.directives_apply, hright, List.filter_append,
      filter_keeps_contexts op hfront', List.append_assoc]
  · rw [BuilderOp.compatibilityMaskAll_apply crate hafter,
      BuilderOp.compatibilityMaskAll_apply crate hafter]
    refine List.rel_append ?_ (BuilderOp.adds_remasked crate hafter _ _)
    refine List.rel_filter ?_ hrest
    intro d d' hremasked
    simp only [hremasked.keeps op]
  · intro d hd
    rcases List.mem_append.mp hd with hold | hnew
    · exact hnone d (List.mem_filter.mp hold).1
    · exact BuilderOp.adds_not_isContext crate hafter left d hnew

/-- So does a run of them, which leaves masks and platforms alone. -/
theorem Builder.Pair.run (crate : IgvmCrate)
    (hfront : ∀ d ∈ front, d.isContext = true)
    (hfront' : ∀ d ∈ front', d.isContext = true)
    (hpair : Pair front front' left right) {ops : List BuilderOp}
    (hafter : ∀ op ∈ ops, op.AfterContexts) :
    Pair front front' (runOps crate left ops) (runOps crate right ops) := by
  induction ops generalizing left right with
  | nil => exact hpair
  | cons op rest ih =>
      exact ih (hpair.apply crate hfront hfront'
        (hafter op List.mem_cons_self))
        fun other hother => hafter other (List.mem_cons_of_mem _ hother)

theorem runOps_header (crate : IgvmCrate) (builder : Builder)
    {ops : List BuilderOp} (hafter : ∀ op ∈ ops, op.AfterContexts) :
    (runOps crate builder ops).platforms = builder.platforms ∧
      (runOps crate builder ops).compatibilityMaskAll =
        builder.compatibilityMaskAll := by
  induction ops generalizing builder with
  | nil => exact ⟨rfl, rfl⟩
  | cons op rest ih =>
      obtain ⟨hplatforms, hmask⟩ := ih (op.apply crate builder)
        fun other hother => hafter other (List.mem_cons_of_mem _ hother)
      have hop := hafter op List.mem_cons_self
      rw [runOps_cons, hplatforms, hmask]
      exact ⟨BuilderOp.platforms_apply crate hop builder,
        BuilderOp.compatibilityMaskAll_apply crate hop builder⟩

end Pairs

section Sorting

variable {front front' : List IgvmDirectiveHeader} {left right : Builder}

theorem sortPages_contexts (hfront : ∀ d ∈ front, d.isContext = true)
    (rest : List IgvmDirectiveHeader) :
    Builder.sortPages (front ++ rest) = front ++ Builder.sortPages rest := by
  refine StableSort.sortBy_append_of_le _ ?_ rest
  intro d hd other
  have hcontext := hfront d hd
  cases d with
  | pageData page => cases hcontext
  | _ => exact Nat.zero_le _

/-- The contexts stay in front when the directives are sorted. -/
theorem Builder.Pair.sorted (hfront : ∀ d ∈ front, d.isContext = true)
    (hfront' : ∀ d ∈ front', d.isContext = true)
    (hpair : Pair front front' left right) :
    ∃ rest rest', sortPages left.directives = front ++ rest ∧
      sortPages right.directives = front' ++ rest' ∧
      List.Forall₂ (Remasked left.compatibilityMaskAll
        right.compatibilityMaskAll) rest rest' ∧
      ∀ d ∈ rest, d.isContext = false := by
  obtain ⟨rest, rest', hleft, hright, hrest, hnone⟩ := hpair.split
  refine ⟨sortPages rest, sortPages rest', ?_, ?_, ?_, ?_⟩
  · rw [hleft, sortPages_contexts hfront]
  · rw [hright, sortPages_contexts hfront']
  · exact StableSort.sortBy_forall₂ sortGpa (fun _ _ h => h.sortGpa) hrest
  · intro d hd
    exact hnone d ((StableSort.sortBy_perm sortGpa rest).mem_iff.mp hd)

/-- The files of a pair are measured alike, up to the VMSAs of the
contexts. -/
theorem Builder.Pair.measured (hfront : ∀ d ∈ front, d.isContext = true)
    (hfront' : ∀ d ∈ front', d.isContext = true)
    (hlength : front.length ≤ front'.length)
    (hpair : Pair front front' left right)
    (hmask : left.compatibilityMaskAll &&& sevSnpCompat ≠ 0)
    (hmask' : right.compatibilityMaskAll &&& sevSnpCompat ≠ 0)
    {igvm igvm' : IgvmFile} (hcompat : igvm.snpCompat = sevSnpCompat)
    (hcompat' : igvm'.snpCompat = sevSnpCompat)
    (hdirectives : igvm.directives = sortPages left.directives)
    (hdirectives' : igvm'.directives = sortPages right.directives) :
    (∃ pages, measuredSequence igvm =
        pages ++ vmsaPagesOf sevSnpCompat front ∧
      measuredSequence igvm' =
        pages ++ vmsaPagesOf sevSnpCompat front') ∧
      vmsaPagesOf igvm.snpCompat igvm.directives =
        vmsaPagesOf sevSnpCompat front ∧
      vmsaPagesOf igvm'.snpCompat igvm'.directives =
        vmsaPagesOf sevSnpCompat front' := by
  obtain ⟨rest, rest', hleft, hright, hrest, hnone⟩ :=
    hpair.sorted hfront hfront'
  rw [hleft] at hdirectives
  rw [hright] at hdirectives'
  have halike : List.Forall₂ (AlikeFor igvm.snpCompat) rest rest' := by
    rw [hcompat]
    exact hrest.imp fun _ _ h => h.alike hmask hmask'
  have hvmsas : vmsaPagesOf sevSnpCompat rest = [] :=
    vmsaPagesOf_of_not_isContext hnone
  have hvmsas' : vmsaPagesOf sevSnpCompat rest' = [] := by
    rw [hcompat] at halike
    rw [vmsaPagesOf_alike halike, hvmsas]
  have hmeasured := measuredSequence_of_alike (hcompat'.trans hcompat.symm)
    hdirectives hdirectives' hfront hfront' hlength halike hnone
  rw [hcompat] at hmeasured
  refine ⟨hmeasured, ?_, ?_⟩
  · rw [hcompat, hdirectives, vmsaPagesOf_append, hvmsas, List.append_nil]
  · rw [hcompat', hdirectives', vmsaPagesOf_append, hvmsas', List.append_nil]

end Sorting

end Igvm

end Kettle
