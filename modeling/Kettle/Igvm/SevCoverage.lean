/-
Which directive covers a page of the firmware's SEV regions: a page of its own,
left out where a parameter area is, or the insert of the first area.
-/
import Kettle.Igvm.DirectiveOrder

namespace Kettle

namespace Igvm

open IgvmDirectiveHeader

section Starts

namespace OvmfRegion

/-- The address is in the region. -/
def Covers (r : OvmfRegion) (addr : Nat) : Prop :=
  r.base ≤ addr ∧ addr < r.base + r.size

def Apart (left right : OvmfRegion) : Prop :=
  ∀ addr, left.Covers addr → ¬ right.Covers addr

/-- The region gets pages. -/
def IsSev (r : OvmfRegion) : Prop := (Builder.sevPageType r.etype).isSome

instance : DecidablePred IsSev := fun r =>
  inferInstanceAs (Decidable ((Builder.sevPageType r.etype).isSome = true))

end OvmfRegion

theorem mem_pageStarts {r : OvmfRegion} {gpa : Nat} :
    gpa ∈ Builder.pageStarts r ↔
      ∃ pg, pg * pageSize < r.size ∧ r.base + pg * pageSize = gpa := by
  simp only [Builder.pageStarts, List.mem_map, List.mem_range,
    Builder.pagesOf, pageSize]
  constructor
  · rintro ⟨pg, hpg, rfl⟩
    exact ⟨pg, by omega, rfl⟩
  · rintro ⟨pg, hpg, rfl⟩
    exact ⟨pg, by omega, rfl⟩

theorem covers_of_mem_pageStarts {r : OvmfRegion} {gpa : Nat}
    (hgpa : gpa ∈ Builder.pageStarts r) : r.Covers gpa := by
  obtain ⟨pg, hpg, rfl⟩ := mem_pageStarts.mp hgpa
  exact ⟨Nat.le_add_right _ _, Nat.add_lt_add_left hpg _⟩

/-- On page boundaries the pages of a region are the ones that start in it. -/
theorem mem_pageStarts_iff_covers {r : OvmfRegion} {gpa : Nat}
    (hbase : r.base % pageSize = 0) (haligned : gpa % pageSize = 0) :
    gpa ∈ Builder.pageStarts r ↔ r.Covers gpa := by
  refine ⟨covers_of_mem_pageStarts, ?_⟩
  rintro ⟨hlow, hhigh⟩
  refine mem_pageStarts.mpr ⟨(gpa - r.base) / pageSize, ?_, ?_⟩
  · simp only [pageSize] at *
    omega
  · simp only [pageSize] at *
    omega

theorem mod_of_mem_pageStarts {r : OvmfRegion} {gpa : Nat}
    (hbase : r.base % pageSize = 0) (hgpa : gpa ∈ Builder.pageStarts r) :
    gpa % pageSize = 0 := by
  obtain ⟨pg, -, rfl⟩ := mem_pageStarts.mp hgpa
  rw [Nat.add_mul_mod_self_right, hbase]

theorem nodup_pageStarts (r : OvmfRegion) :
    (Builder.pageStarts r).Nodup := by
  refine List.nodup_range.map ?_
  intro left right heq
  simp only [pageSize] at heq
  omega

theorem inParamArea_iff {ovmfmeta : OvmfMeta} {gpa : Nat} :
    Builder.inParamArea ovmfmeta gpa = true ↔
      ∃ area ∈ ovmfmeta.regions, area.etype = .igvmParamArea ∧
        area.Covers gpa := by
  simp [Builder.inParamArea, OvmfRegion.Covers, and_assoc]

end Starts

section Coverage

/-- The inserts of a list of directives. -/
def insertsOf : List IgvmDirectiveHeader → List IgvmParameterInsert :=
  List.filterMap fun
    | .parameterInsert insert => some insert
    | _ => none

/-- The declared areas and their sizes. -/
def areasOf : List IgvmDirectiveHeader → List (UInt32 × Nat) :=
  List.filterMap fun
    | .parameterArea bytes index _ => some (index, bytes.toNat)
    | _ => none

/-- The pages that an insert puts an area on. -/
def areaPages (insert : IgvmParameterInsert) (area : UInt32 × Nat) :
    List Nat :=
  if area.1 = insert.parameterAreaIndex then
    (List.range (Builder.pagesOf area.2)).map fun pg =>
      insert.gpa.toNat + pg * pageSize
  else []

/-- The pages of all inserts. -/
def insertedPages (directives : List IgvmDirectiveHeader) : List Nat :=
  (insertsOf directives).flatMap fun insert =>
    (areasOf directives).flatMap (areaPages insert)

/-- One page at the address, of the given type, and no insert; or one insert
and no page. -/
def CoveredOnce (directives : List IgvmDirectiveHeader)
    (dataType : IgvmPageDataType) (gpa : Nat) : Prop :=
  ((∃ page : PageData, directives.filter (isPageAt gpa) = [.pageData page] ∧
      page.dataType = dataType) ∧ gpa ∉ insertedPages directives) ∨
    (directives.filter (isPageAt gpa) = [] ∧
      (insertedPages directives).count gpa = 1)

/-- Every page of every SEV region is covered once. -/
def SevCovered (ovmfmeta : OvmfMeta)
    (directives : List IgvmDirectiveHeader) : Prop :=
  ∀ r ∈ ovmfmeta.regions, ∀ dataType,
    Builder.sevPageType r.etype = some dataType →
      ∀ gpa ∈ Builder.pageStarts r, CoveredOnce directives dataType gpa

/-- The regions that matter are on page boundaries and below the address
limit, and the SEV regions are disjoint. -/
structure SevLayout (ovmfmeta : OvmfMeta) : Prop where
  aligned : ∀ r ∈ ovmfmeta.regions, r.IsSev ∨ r.etype = .igvmParamArea →
    r.base % pageSize = 0
  bound : ∀ r ∈ ovmfmeta.regions, r.base + r.size < 2 ^ 64
  apart : ovmfmeta.regions.Pairwise fun left right =>
    left.IsSev → right.IsSev → left.Apart right

/-- A builder that has contexts only. -/
def Builder.NoPages (builder : Builder) : Prop :=
  ∀ d ∈ builder.directives,
    d.isPage = false ∧ d.areaIndex = none ∧ d.insertIndex = none

theorem noPages_new : Builder.new.NoPages := by
  intro d hd
  cases hd

/-- What a SEV region's page needs: an area that it starts in is, or overlaps
there with, the first one. -/
def FirstAreaCovers (ovmfmeta : OvmfMeta) : Prop :=
  ∀ r ∈ ovmfmeta.regions, r.IsSev → ∀ gpa ∈ Builder.pageStarts r,
    ∀ area ∈ ovmfmeta.regions, area.etype = .igvmParamArea →
      area.Covers gpa → ∃ first, ovmfmeta.regions.find?
        (fun r => r.etype = .igvmParamArea) = some first ∧ first.Covers gpa

end Coverage

section Pages

variable {ovmfmeta : OvmfMeta}

theorem gpa_lt_of_mem_pageStarts {r : OvmfRegion} {gpa : Nat}
    (hbound : r.base + r.size < 2 ^ 64)
    (hgpa : gpa ∈ Builder.pageStarts r) : gpa < 2 ^ 64 :=
  Nat.lt_trans (covers_of_mem_pageStarts hgpa).2 hbound

theorem filter_pageStarts {r : OvmfRegion} {gpa : Nat}
    (hgpa : gpa ∈ Builder.pageStarts r) :
    (Builder.pageStarts r).filter (fun start => start = gpa) = [gpa] := by
  rw [List.filter_eq, List.count_eq_one_of_mem (nodup_pageStarts r) hgpa]
  rfl

/-- What a region leaves at one of its own addresses. -/
theorem filter_sevPages_own {r : OvmfRegion} {gpa : Nat}
    {dataType : IgvmPageDataType} (hbound : r.base + r.size < 2 ^ 64)
    (htype : Builder.sevPageType r.etype = some dataType)
    (hgpa : gpa ∈ Builder.pageStarts r) :
    ((Builder.sevPages ovmfmeta r).map .pageData).filter (isPageAt gpa) =
      if Builder.inParamArea ovmfmeta gpa = true then []
      else [.pageData (Builder.sevPage dataType gpa)] := by
  have hstarts : ((Builder.pageStarts r).filter fun start =>
      !Builder.inParamArea ovmfmeta start).filter
        (fun start => (UInt64.ofNat start).toNat = gpa) =
      [gpa].filter fun start => !Builder.inParamArea ovmfmeta start := by
    rw [← filter_pageStarts hgpa, List.filter_filter, List.filter_filter]
    apply List.filter_congr
    intro start hstart
    rw [UInt64.toNat_ofNat',
      Nat.mod_eq_of_lt (gpa_lt_of_mem_pageStarts hbound hstart), Bool.and_comm]
  have hcomp : (isPageAt gpa ∘ IgvmDirectiveHeader.pageData) ∘
      Builder.sevPage dataType =
        fun start => decide ((UInt64.ofNat start).toNat = gpa) := rfl
  rw [Builder.sevPages, htype, List.filter_map, List.filter_map, hcomp]
  simp only [hstarts]
  cases hinside : Builder.inParamArea ovmfmeta gpa <;> simp [hinside]

/-- What it leaves at an address of another region. -/
theorem filter_sevPages_other {r : OvmfRegion} {gpa : Nat}
    (hbound : r.base + r.size < 2 ^ 64) (hother : r.IsSev → ¬ r.Covers gpa) :
    ((Builder.sevPages ovmfmeta r).map .pageData).filter (isPageAt gpa) =
      [] := by
  rw [List.filter_eq_nil_iff]
  intro d hd hat
  obtain ⟨page, hpage, rfl⟩ := List.mem_map.mp hd
  unfold Builder.sevPages at hpage
  cases htype : Builder.sevPageType r.etype with
  | none => simp [htype] at hpage
  | some t =>
      rw [htype] at hpage
      obtain ⟨start, hstart, rfl⟩ := List.mem_map.mp hpage
      have hmem := (List.mem_filter.mp hstart).1
      simp only [isPageAt, Builder.sevPage, UInt64.toNat_ofNat',
        Nat.mod_eq_of_lt (gpa_lt_of_mem_pageStarts hbound hmem),
        decide_eq_true_eq] at hat
      rw [hat] at hmem
      exact hother (by simp [OvmfRegion.IsSev, htype])
        (covers_of_mem_pageStarts hmem)

/-- All SEV pages at an address of one region. -/
theorem filter_sevPages (hlayout : SevLayout ovmfmeta) {r : OvmfRegion}
    (hr : r ∈ ovmfmeta.regions) {dataType : IgvmPageDataType}
    (htype : Builder.sevPageType r.etype = some dataType) {gpa : Nat}
    (hgpa : gpa ∈ Builder.pageStarts r) :
    (ovmfmeta.regions.flatMap fun r =>
        (Builder.sevPages ovmfmeta r).map .pageData).filter (isPageAt gpa) =
      if Builder.inParamArea ovmfmeta gpa = true then []
      else [.pageData (Builder.sevPage dataType gpa)] := by
  have hsev : r.IsSev := by simp [OvmfRegion.IsSev, htype]
  have hcovers := covers_of_mem_pageStarts hgpa
  obtain ⟨front, back, hsplit⟩ := List.append_of_mem hr
  have hapart := hlayout.apart
  rw [hsplit] at hapart
  obtain ⟨-, hrest, hbefore⟩ := List.pairwise_append.mp hapart
  have hafter := (List.pairwise_cons.mp hrest).1
  have hnil : ∀ other ∈ ovmfmeta.regions,
      (other.IsSev → ¬ other.Covers gpa) →
      ((Builder.sevPages ovmfmeta other).map .pageData).filter
        (isPageAt gpa) = [] :=
    fun other hother => filter_sevPages_other (hlayout.bound other hother)
  have hfront : (front.flatMap fun other =>
      ((Builder.sevPages ovmfmeta other).map .pageData).filter
        (isPageAt gpa)) = [] := by
    refine List.flatMap_eq_nil_iff.mpr fun other hother => ?_
    refine hnil other (by rw [hsplit]; exact List.mem_append_left _ hother)
      fun hkind hin => ?_
    exact hbefore other hother r List.mem_cons_self hkind hsev gpa hin hcovers
  have hback : (back.flatMap fun other =>
      ((Builder.sevPages ovmfmeta other).map .pageData).filter
        (isPageAt gpa)) = [] := by
    refine List.flatMap_eq_nil_iff.mpr fun other hother => ?_
    refine hnil other (by
      rw [hsplit]
      exact List.mem_append_right _ (List.mem_cons_of_mem _ hother))
      fun hkind hin => ?_
    exact hafter other hother hsev hkind gpa hcovers hin
  have hown := @filter_sevPages_own ovmfmeta r gpa dataType
    (hlayout.bound r hr) htype hgpa
  rw [List.filter_flatMap, hsplit, List.flatMap_append, List.flatMap_cons,
    hfront, hback, hown, List.nil_append, List.append_nil]

theorem not_isPage_of_mem_igvmParams {mask : UInt32} {d : IgvmDirectiveHeader}
    (hd : d ∈ Builder.igvmParams ovmfmeta mask) : d.isPage = false := by
  have hparam := Builder.isParam_of_mem_igvmParams hd
  cases d with
  | pageData page => cases hparam
  | _ => rfl

theorem filter_isPageAt_of_not_isPage {directives : List IgvmDirectiveHeader}
    (hpages : ∀ d ∈ directives, d.isPage = false) (gpa : Nat) :
    directives.filter (isPageAt gpa) = [] := by
  rw [List.filter_eq_nil_iff]
  intro d hd
  simp [isPageAt_eq, hpages d hd]

/-- What both calls leave in the builder. -/
theorem directives_result (builder : Builder) (ovmfmeta : OvmfMeta) :
    ((builder.addOvmfSnpPages ovmfmeta).addOvmfIgvmParams
        ovmfmeta).directives =
      builder.directives ++
        (ovmfmeta.regions.flatMap fun r =>
          (Builder.sevPages ovmfmeta r).map .pageData) ++
        Builder.igvmParams ovmfmeta builder.compatibilityMaskAll := by
  rw [Builder.addOvmfIgvmParams_eq, Builder.addOvmfSnpPages_eq]
  rfl

/-- The pages at an address of a region, after both calls. -/
theorem filter_isPageAt_result (hlayout : SevLayout ovmfmeta)
    {builder : Builder} (hbuilder : builder.NoPages) {r : OvmfRegion}
    (hr : r ∈ ovmfmeta.regions) {dataType : IgvmPageDataType}
    (htype : Builder.sevPageType r.etype = some dataType) {gpa : Nat}
    (hgpa : gpa ∈ Builder.pageStarts r) :
    ((builder.addOvmfSnpPages ovmfmeta).addOvmfIgvmParams
        ovmfmeta).directives.filter (isPageAt gpa) =
      if Builder.inParamArea ovmfmeta gpa = true then []
      else [.pageData (Builder.sevPage dataType gpa)] := by
  have hstart := filter_isPageAt_of_not_isPage
    (fun d hd => (hbuilder d hd).1) gpa
  have hparams := filter_isPageAt_of_not_isPage
    (fun d => @not_isPage_of_mem_igvmParams ovmfmeta
      builder.compatibilityMaskAll d) gpa
  rw [directives_result, List.filter_append, List.filter_append, hstart,
    hparams, filter_sevPages hlayout hr htype hgpa, List.nil_append,
    List.append_nil]

theorem insertsOf_append (front back : List IgvmDirectiveHeader) :
    insertsOf (front ++ back) = insertsOf front ++ insertsOf back :=
  List.filterMap_append

theorem areasOf_append (front back : List IgvmDirectiveHeader) :
    areasOf (front ++ back) = areasOf front ++ areasOf back :=
  List.filterMap_append

theorem insertsOf_eq_nil {directives : List IgvmDirectiveHeader}
    (hnone : ∀ d ∈ directives, d.insertIndex = none) :
    insertsOf directives = [] := by
  refine List.filterMap_eq_nil_iff.mpr fun d hd => ?_
  cases d with
  | parameterInsert insert => cases hnone _ hd
  | _ => rfl

theorem areasOf_eq_nil {directives : List IgvmDirectiveHeader}
    (hnone : ∀ d ∈ directives, d.areaIndex = none) :
    areasOf directives = [] := by
  refine List.filterMap_eq_nil_iff.mpr fun d hd => ?_
  cases d with
  | parameterArea bytes index data => cases hnone _ hd
  | _ => rfl

/-- Pages and the other parameters insert nothing and declare no area. -/
theorem inserts_areas_result {builder : Builder}
    (hbuilder : builder.NoPages) :
    insertsOf ((builder.addOvmfSnpPages ovmfmeta).addOvmfIgvmParams
        ovmfmeta).directives =
      insertsOf (Builder.igvmParams ovmfmeta builder.compatibilityMaskAll) ∧
    areasOf ((builder.addOvmfSnpPages ovmfmeta).addOvmfIgvmParams
        ovmfmeta).directives =
      areasOf (Builder.igvmParams ovmfmeta builder.compatibilityMaskAll) := by
  have hpages : ∀ d ∈ ovmfmeta.regions.flatMap fun r =>
      (Builder.sevPages ovmfmeta r).map IgvmDirectiveHeader.pageData,
      d.isPage = true := by
    intro d hd
    obtain ⟨r, -, hd⟩ := List.mem_flatMap.mp hd
    obtain ⟨page, -, rfl⟩ := List.mem_map.mp hd
    rfl
  constructor
  · rw [directives_result, insertsOf_append, insertsOf_append,
      insertsOf_eq_nil fun d hd => (hbuilder d hd).2.2,
      insertsOf_eq_nil fun d hd => insertIndex_of_isPage (hpages d hd)]
    rfl
  · rw [directives_result, areasOf_append, areasOf_append,
      areasOf_eq_nil fun d hd => (hbuilder d hd).2.1,
      areasOf_eq_nil fun d hd => areaIndex_of_isPage (hpages d hd)]
    rfl

/-- The pages of the one insert, when there is an area. -/
theorem insertedPages_result (hlayout : SevLayout ovmfmeta)
    {builder : Builder} (hbuilder : builder.NoPages) :
    insertedPages ((builder.addOvmfSnpPages ovmfmeta).addOvmfIgvmParams
        ovmfmeta).directives =
      match ovmfmeta.regions.find? (fun r => r.etype = .igvmParamArea) with
      | none => []
      | some area => Builder.pageStarts area := by
  have hparams : ∀ d ∈ ovmfmeta.regions.flatMap Builder.igvmParam,
      d.insertIndex = none ∧ d.areaIndex = none := by
    intro d hd
    obtain ⟨r, -, hd⟩ := List.mem_flatMap.mp hd
    exact indices_of_mem_igvmParam hd
  obtain ⟨hinserts, hareas⟩ := inserts_areas_result hbuilder
  rw [insertedPages, hinserts, hareas, Builder.igvmParams]
  cases hfind : ovmfmeta.regions.find? (fun r => r.etype = .igvmParamArea) with
  | none => rfl
  | some area =>
      have hbound := hlayout.bound area (List.mem_of_find?_eq_some hfind)
      have hsize : (UInt64.ofNat area.size).toNat = area.size := by
        rw [UInt64.toNat_ofNat', Nat.mod_eq_of_lt (by omega)]
      have hbase : (UInt64.ofNat area.base).toNat = area.base := by
        rw [UInt64.toNat_ofNat', Nat.mod_eq_of_lt (by omega)]
      simp only [insertsOf_append, areasOf_append,
        insertsOf_eq_nil fun d hd => (hparams d hd).1,
        areasOf_eq_nil fun d hd => (hparams d hd).2]
      simp [insertsOf, areasOf, areaPages, hsize, hbase,
        Builder.pageStarts]

end Pages

section Coverage

variable {ovmfmeta : OvmfMeta} {builder : Builder}

theorem etype_of_find? {first : OvmfRegion}
    (hfind : ovmfmeta.regions.find? (fun r => r.etype = .igvmParamArea) =
      some first) : first.etype = .igvmParamArea := by
  simpa using List.find?_some hfind

/-- Of the addresses of SEV pages the first area's pages are those in it. -/
theorem mem_pageStarts_first_iff (hlayout : SevLayout ovmfmeta)
    {r first : OvmfRegion} (hr : r ∈ ovmfmeta.regions) (hsev : r.IsSev)
    {gpa : Nat} (hgpa : gpa ∈ Builder.pageStarts r)
    (hfind : ovmfmeta.regions.find? (fun r => r.etype = .igvmParamArea) =
      some first) :
    gpa ∈ Builder.pageStarts first ↔ first.Covers gpa :=
  mem_pageStarts_iff_covers
    (hlayout.aligned first (List.mem_of_find?_eq_some hfind)
      (.inr (etype_of_find? hfind)))
    (mod_of_mem_pageStarts (hlayout.aligned r hr (.inl hsev)) hgpa)

/-- A page that is left out is covered by the insert, so it lies in the first
area. -/
theorem firstAreaCovers_of_sevCovered (hlayout : SevLayout ovmfmeta)
    (hbuilder : builder.NoPages)
    (hcovered : SevCovered ovmfmeta ((builder.addOvmfSnpPages
      ovmfmeta).addOvmfIgvmParams ovmfmeta).directives) :
    FirstAreaCovers ovmfmeta := by
  intro r hr hsev gpa hgpa area harea hetype hin
  obtain ⟨dataType, htype⟩ := Option.isSome_iff_exists.mp hsev
  have hpages := filter_isPageAt_result hlayout hbuilder hr htype hgpa
  rw [if_pos (inParamArea_iff.mpr ⟨area, harea, hetype, hin⟩)] at hpages
  rcases hcovered r hr dataType htype gpa hgpa with
    ⟨⟨page, hpage, -⟩, -⟩ | ⟨-, hcount⟩
  · rw [hpages] at hpage
    cases hpage
  · rw [insertedPages_result hlayout hbuilder] at hcount
    cases hfind : ovmfmeta.regions.find?
        (fun r => r.etype = .igvmParamArea) with
    | none => simp [hfind] at hcount
    | some first =>
        rw [hfind] at hcount
        have hmem : gpa ∈ Builder.pageStarts first :=
          List.count_pos_iff.mp (by simp only at hcount; omega)
        exact ⟨first, rfl,
          (mem_pageStarts_first_iff hlayout hr hsev hgpa hfind).mp hmem⟩

/-- A page outside every area has its own directive, any other is inserted
once. -/
theorem sevCovered_of_firstAreaCovers (hlayout : SevLayout ovmfmeta)
    (hbuilder : builder.NoPages) (hcondition : FirstAreaCovers ovmfmeta) :
    SevCovered ovmfmeta ((builder.addOvmfSnpPages ovmfmeta).addOvmfIgvmParams
      ovmfmeta).directives := by
  intro r hr dataType htype gpa hgpa
  have hsev : r.IsSev := by simp [OvmfRegion.IsSev, htype]
  have hpages := filter_isPageAt_result hlayout hbuilder hr htype hgpa
  have hinserted := insertedPages_result hlayout hbuilder
  cases hinside : Builder.inParamArea ovmfmeta gpa with
  | false =>
      rw [hinside] at hpages
      refine .inl ⟨⟨_, hpages, rfl⟩, ?_⟩
      rw [hinserted]
      cases hfind : ovmfmeta.regions.find?
          (fun r => r.etype = .igvmParamArea) with
      | none => simp
      | some first =>
          intro hmem
          have hin : Builder.inParamArea ovmfmeta gpa = true :=
            inParamArea_iff.mpr ⟨first, List.mem_of_find?_eq_some hfind,
              etype_of_find? hfind, covers_of_mem_pageStarts hmem⟩
          rw [hinside] at hin
          cases hin
  | true =>
      rw [hinside] at hpages
      obtain ⟨area, harea, hetype, hin⟩ := inParamArea_iff.mp hinside
      obtain ⟨first, hfind, hcovers⟩ :=
        hcondition r hr hsev gpa hgpa area harea hetype hin
      refine .inr ⟨hpages, ?_⟩
      rw [hinserted, hfind]
      exact List.count_eq_one_of_mem (nodup_pageStarts first)
        ((mem_pageStarts_first_iff hlayout hr hsev hgpa hfind).mpr hcovers)

end Coverage

/-- Every page of the SEV regions is covered once for exactly the metadata
where no later parameter area reaches a page that the first one leaves. -/
theorem sevCovered_iff {ovmfmeta : OvmfMeta} (hlayout : SevLayout ovmfmeta)
    {builder : Builder} (hbuilder : builder.NoPages) :
    SevCovered ovmfmeta ((builder.addOvmfSnpPages ovmfmeta).addOvmfIgvmParams
        ovmfmeta).directives ↔
      FirstAreaCovers ovmfmeta :=
  ⟨firstAreaCovers_of_sevCovered hlayout hbuilder,
    sevCovered_of_firstAreaCovers hlayout hbuilder⟩

section Samples

/-- A parameter area in the second page of a SEV region, and no other. -/
def oneAreaMeta : OvmfMeta where
  firmware := []
  regions := [⟨0x80000, 0x2000, .sevMemory⟩, ⟨0x81000, 0x1000, .igvmParamArea⟩]
  sevResetAddr := none

theorem sevCovered_oneArea :
    SevCovered oneAreaMeta ((Builder.new.addOvmfSnpPages
      oneAreaMeta).addOvmfIgvmParams oneAreaMeta).directives := by
  have hlayout : SevLayout oneAreaMeta := by
    refine ⟨by decide, by decide, ?_⟩
    simp [oneAreaMeta, OvmfRegion.IsSev, Builder.sevPageType]
  refine (sevCovered_iff hlayout noPages_new).mpr ?_
  intro r _ _ gpa _ area harea hetype hin
  rcases List.mem_cons.mp harea with rfl | harea
  · cases hetype
  · rw [List.mem_singleton.mp harea] at hin
    exact ⟨_, rfl, hin⟩

/-- A second parameter area on the page of a SEV region. -/
def twoAreasMeta : OvmfMeta where
  firmware := []
  regions := [⟨0x80000, 0x1000, .igvmParamArea⟩,
    ⟨0x81000, 0x1000, .igvmParamArea⟩, ⟨0x81000, 0x1000, .sevMemory⟩]
  sevResetAddr := none

theorem twoAreasMeta_layout : SevLayout twoAreasMeta := by
  refine ⟨by decide, by decide, ?_⟩
  simp [twoAreasMeta, OvmfRegion.IsSev, Builder.sevPageType]

/-- The page has no data and no insert. -/
theorem not_sevCovered_twoAreas :
    SevLayout twoAreasMeta ∧
      ¬ SevCovered twoAreasMeta ((Builder.new.addOvmfSnpPages
        twoAreasMeta).addOvmfIgvmParams twoAreasMeta).directives := by
  refine ⟨twoAreasMeta_layout, fun hcovered => ?_⟩
  have hpage := hcovered ⟨0x81000, 0x1000, .sevMemory⟩ (by decide) .normal rfl
    0x81000 (by decide)
  have hpages : ((Builder.new.addOvmfSnpPages twoAreasMeta).addOvmfIgvmParams
      twoAreasMeta).directives.filter (isPageAt 0x81000) = [] := by decide
  rcases hpage with ⟨⟨page, hone, -⟩, -⟩ | ⟨-, hcount⟩
  · rw [hpages] at hone
    cases hone
  · rw [insertedPages_result twoAreasMeta_layout noPages_new] at hcount
    revert hcount
    decide

end Samples

end Igvm

end Kettle
