import DslG624t.Adam2.Defrag
import DslG624t.Env.Map
import DslG624t.Ticfg.Listing

/-!
# The listings of the two stores

`ticfg_proc_read_env` numbers the variables from 0 on and takes the first number without a
variable for the end.
-/

namespace DslG624t.Ticfg

open CString Env Function List Option

def adam2Value (r : Adam2.Region) (var : CStr) : Option Bytes := Adam2.adam2EnvGetValue r var

variable {r : Adam2.Region}

lemma presents_adam2 (h : Adam2.Reach r) (fuel : ℕ) : Presents adam2Api fuel r [] := by
  obtain ⟨log,hlog,rfl⟩ := h.exists_log
  refine ⟨fun pre line post hnil => ?_,?_⟩
  · simp at hnil
  have hzero : log.entryAt 0 = none := by
    rw [eq_none_iff_forall_ne_some]
    rintro ⟨v,x⟩ hentry
    have hpos := (hlog.live_bounds v 0 x (hlog.entryAt_eq_some.mp hentry)).1
    cases hpos
  have hvar : Adam2.adam2EnvGetVariable log.region 0 = none := by
    rw [Adam2.adam2EnvGetVariable_entryAt hlog,hzero,map_none]
  exact congrArg (fun v => some (v,log.region)) hvar

lemma lists_adam2_iff (h : Adam2.Reach r) (n : ReadSize) (ns : List ReadSize) :
    Lists Subtype.val (adam2Value r) adam2Api r (n :: ns) ↔
      80 ≤ n.1 ∧ ∀ var, adam2Value r var = none := by
  have hreads := reads_outcome ⟨0,fun fuel _ => presents_adam2 h fuel⟩ (n :: ns)
  have hiff : Lists Subtype.val (adam2Value r) adam2Api r (n :: ns) ↔
      (outcome [] [] (n :: ns)).Lists Subtype.val (adam2Value r) :=
    ⟨fun ⟨_,ho,hlists⟩ => ho.unique hreads ▸ hlists,fun hlists => ⟨_,hreads,hlists⟩⟩
  rw [hiff,outcome]
  by_cases hsmall : n.1 < 80
  · rw [if_pos hsmall]
    exact ⟨False.elim,fun hcond => absurd hcond.1 (not_le.mpr hsmall)⟩
  · rw [if_neg hsmall]
    exact listing_nil_iff.trans (and_iff_right (not_lt.mp hsmall)).symm

section Pspboot

variable {cfg : EnvConfig} {fuel : ℕ} {rs : Log cfg.table} {r : Rec cfg.table}

lemma getVariable_found {m : Bytes} {idx : ℕ} {var : Bytes}
    (h : sysGetivar fuel cfg m idx = some (some var,m)) :
    adam2EnvGetVariable fuel cfg m idx = some (some var,m) := by
  simp only [adam2EnvGetVariable,h,bind_some,deref,map_some]

lemma getVariable_end {rest : Bytes} (hend : LogEnd cfg rs rest) (hfuel : cfg.size ≤ fuel) :
    adam2EnvGetVariable fuel cfg (region rs rest) rs.liveCount = some (none,region rs rest) := by
  have hnone := getEnvBlockByNumber_end hend hfuel (le_refl rs.liveCount)
  rw [adam2EnvGetVariable,sysGetivar,hnone]
  rfl

lemma getValue_found {m var val : Bytes} (h : sysGetenv fuel cfg m var = some (some val,m)) :
    adam2EnvGetValue fuel cfg m var = some (some val,m) := by
  simp only [adam2EnvGetValue,h,bind_some,deref,map_some]

def mapValue (μ : EnvMap cfg.table) (v : Var cfg.table) : Option Bytes := (μ v).map Subtype.val

def liveVars (rs : Log cfg.table) : List (Var cfg.table) := (rs.filter Rec.live).map Rec.var

lemma enumerates_liveVars (h : rs.Sound) :
    Enumerates (mapValue rs.value) (liveVars rs) where
  nodup := by
    refine pairwise_map.mpr (h.pairwise_filter.imp_of_mem fun {r x} hr hx hrx => ?_)
    exact Log.Sound.live_var_ne (List.mem_filter.mp hr).2 (List.mem_filter.mp hx).2 fun _ => hrx
  mem_iff v := by
    rw [mapValue,isSome_map,isSome_iff_exists,liveVars,List.mem_map]
    constructor
    · rintro ⟨r,hr,rfl⟩
      obtain ⟨hr,hl⟩ := mem_filter.mp hr
      exact ⟨r.value,h.value_of_mem hr hl⟩
    · rintro ⟨x,hx⟩
      obtain ⟨r,hr,hl,hv,-⟩ := value_eq_some hx
      exact ⟨r,mem_filter.mpr ⟨hr,hl⟩,hv⟩

lemma exists_split_of_filter {rs pre post : Log cfg.table}
    (h : rs.filter Rec.live = pre ++ r :: post) :
    ∃ a b, rs = a ++ r :: b ∧ r.live = true ∧ a.liveCount = pre.length := by
  obtain ⟨a,b,rfl,rfl,hb⟩ := filter_eq_append_iff.mp h
  obtain ⟨c,d,rfl,hc,hl,rfl⟩ := filter_eq_cons_iff.mp hb
  refine ⟨a ++ c,d,by rw [append_assoc],hl,?_⟩
  have hnone : Log.liveCount c = 0 := countP_eq_zero.mpr hc
  rw [Log.liveCount_append,hnone,add_zero]
  exact countP_eq_length_filter

lemma get_name_of_mem (h : rs.Sound) (hr : r ∈ rs) (hl : r.live = true) :
    rs.get cfg r.var.name = (some r.value,rs) := by
  obtain ⟨a,b,hf⟩ := h.find_self hr hl
  rw [Log.get,hf]
  simp only [h.good r hr hl,if_true]

lemma presents_pspboot (h : rs.Sound) (hsize : rs.off ≤ cfg.size) (after : Bytes)
    (hfuel : cfg.size ≤ fuel) :
    Presents (pspbootApi cfg) fuel (image cfg rs after)
      ((liveVars rs).map (lineOf (fun v => v.name.1) (mapValue rs.value))) := by
  rw [liveVars,List.map_map]
  constructor
  · intro pre line post heq
    obtain ⟨l1,l2,hfilter,rfl,htail⟩ := map_eq_append_iff.mp heq
    obtain ⟨r,l3,rfl,rfl,-⟩ := map_eq_cons_iff.mp htail
    obtain ⟨a,b,rfl,hl,hcount⟩ := exists_split_of_filter hfilter
    have hmem : r ∈ a ++ r :: b := mem_append_right a mem_cons_self
    refine ⟨r.var.name.1,r.value.1,?_,?_,?_⟩
    · rw [length_map,← hcount]
      exact getVariable_found (sysGetivar_found a r b _ hsize hfuel hl (h.good r hmem hl))
    · have hget := sysGetenv_image hfuel hsize after r.var.name
      rw [get_name_of_mem h hmem hl] at hget
      exact getValue_found hget
    · rw [comp_apply,lineOf,mapValue,h.value_of_mem hmem hl]
      rfl
  have hcount : ((rs.filter Rec.live).map
      (lineOf (fun v => v.name.1) (mapValue rs.value) ∘ Rec.var)).length = rs.liveCount := by
    rw [length_map]
    exact countP_eq_length_filter.symm
  rw [hcount]
  exact getVariable_end (logEnd_image hsize after) hfuel

lemma lists_pspboot_iff {μ : EnvMap cfg.table} {s : EnvState} (h : MapRun cfg μ s) :
    ∃ vars, Enumerates (mapValue μ) vars ∧ ∀ sizes,
      Lists (fun v => v.name.1) (mapValue μ) (pspbootApi cfg) s.mem sizes ↔
        Served (vars.map (lineOf (fun v => v.name.1) (mapValue μ))) sizes := by
  obtain ⟨s,after,rfl,hinv⟩ := mapInv_of_mapRun h
  obtain rfl := hinv.value
  refine ⟨liveVars s.log,enumerates_liveVars hinv.sound,lists_iff ?_ ?_⟩
  · exact enumerates_liveVars hinv.sound
  · exact ⟨cfg.size,fun fuel hfuel => presents_pspboot hinv.sound hinv.off_le after hfuel⟩

end Pspboot

def fullRead : ReadSize := ⟨pageSize,by decide⟩

def mapX (val : CStr) : EnvMap ar7Config.table :=
  update (fun _ => none) (Var.ofName ar7Config.table (lit "x" nulFree_x)) (some val)

lemma enumerates_mapX {val : CStr} {vars : List (Var ar7Config.table)}
    (h : Enumerates (mapValue (mapX val)) vars) :
    vars = [Var.ofName ar7Config.table (lit "x")] := by
  have hx : Enumerates (mapValue (mapX val)) [Var.ofName ar7Config.table (lit "x")] := by
    refine ⟨nodup_singleton _,fun v => ?_⟩
    rw [mem_singleton,mapValue,isSome_map]
    by_cases hv : v = Var.ofName ar7Config.table (lit "x")
    · rw [hv,mapX,update_self]
      exact iff_of_true rfl rfl
    · rw [mapX,update_of_ne hv]
      exact iff_of_false hv (by simp)
  exact perm_singleton.mp (h.perm hx)

lemma lineOf_mapX (val : CStr) :
    lineOf (fun v => v.name.1) (mapValue (mapX val)) (Var.ofName ar7Config.table (lit "x")) =
      formatLine (ofString "x") val.1 := by
  have hidx : ar7Config.table.index (lit "x") = 0 := by decide +kernel
  rw [lineOf,mapValue,mapX,update_self,name_ofName_of_index_eq_zero hidx]
  rfl

lemma mapRun_mapX (val : CStr) (hcells : cellsNeeded ar7Config (lit "x") val ≤ 255)
    (hfit : Log.fits ar7Config (lit "x") val [] = true) :
    ∃ s t, formatEnvBlock ar7Config ⟨[],[]⟩ = (.success,s) ∧
      Answers ar7Config s (.setenv (some (lit "x")) (some val)) (.status .success,t) ∧
      MapRun ar7Config (mapX val) t := by
  let e : Setting ar7Config := ⟨lit "x",val,false,hcells⟩
  have hro : (!ar7Config.standalone && isReadOnlyVar (lit "x").1) = false := by decide
  have hset := returns_setenv (s := ⟨[],[]⟩) (e := e) (off_nil_le ar7Config) rfl hro
    (LogState.setenv_append rfl hfit) []
  have hrun := (MapRun.format formatEnvBlock_ar7).call (c := .setenv (some e.name) (some e.value))
    e.cells_le (fun _ _ _ => nofun) hset
  have hmap : Call.effect ar7Config (fun _ => none) (.setenv (some e.name) (some e.value))
      (.status .success) = mapX val := by
    rw [Call.effect,hro]
    rfl
  rw [hmap] at hrun
  exact ⟨_,_,formatEnvBlock_ar7,hset,hrun⟩

/-- What the two stores show of their variables. -/
theorem lists_iff_served (hr : Adam2.Reach r) (n : ReadSize) (ns : List ReadSize)
    {μ : EnvMap cfg.table} {s : EnvState} (hs : MapRun cfg μ s) :
    (Lists Subtype.val (adam2Value r) adam2Api r (n :: ns) ↔
      80 ≤ n.1 ∧ ∀ var, adam2Value r var = none) ∧
    ∃ vars, Enumerates (mapValue μ) vars ∧ ∀ sizes,
      Lists (fun v => v.name.1) (mapValue μ) (pspbootApi cfg) s.mem sizes ↔
        Served (vars.map (lineOf (fun v => v.name.1) (mapValue μ))) sizes :=
  ⟨lists_adam2_iff hr n ns,lists_pspboot_iff hs⟩

theorem lists_iff_served_one :
    Lists Subtype.val (adam2Value Adam2.erasedRegion) adam2Api Adam2.erasedRegion [fullRead] ∧
    ∃ s t, formatEnvBlock ar7Config ⟨[],[]⟩ = (.success,s) ∧
      Answers ar7Config s (.setenv (some (lit "x")) (some (lit "1"))) (.status .success,t) ∧
      Lists (fun v => v.name.1) (mapValue (mapX (lit "1"))) (pspbootApi ar7Config) t.mem
        [fullRead,fullRead] := by
  obtain ⟨s,t,hformat,hset,hrun⟩ := mapRun_mapX (lit "1") (by decide) (by decide)
  obtain ⟨hadam2,vars,hvars,hlists⟩ := lists_iff_served .erased fullRead [] hrun
  refine ⟨hadam2.mpr ⟨by decide,fun _ => rfl⟩,s,t,hformat,hset,(hlists _).mpr ?_⟩
  have hcount : readCount fullRead 0 [formatLine (ofString "x") (lit "1").1] = 1 := by decide
  rw [enumerates_mapX hvars,map_singleton,lineOf_mapX,Served,hcount]
  exact ⟨by decide,show 80 ≤ fullRead.1 by decide⟩

/-- A variable of the one store has the number 1, and the listing ends at 0; a line of the other
is longer than a block. -/
theorem lists_fails_full_reads :
    (∃ r, r = Adam2.run Adam2.erasedRegion [.set [] (lit "a") (lit "1")] ∧
      adam2Value r (lit "a") = some (ofString "1") ∧ Reads adam2Api r [fullRead] (.eof []) ∧
      ¬ Lists Subtype.val (adam2Value r) adam2Api r [fullRead]) ∧
    ∃ s t, formatEnvBlock ar7Config ⟨[],[]⟩ = (.success,s) ∧
      Answers ar7Config s (.setenv (some (lit "x")) (some (letters 3000))) (.status .success,t) ∧
      ¬ Lists (fun v => v.name.1) (mapValue (mapX (letters 3000))) (pspbootApi ar7Config) t.mem
        [fullRead] := by
  constructor
  · have hreach : Adam2.Reach (Adam2.run Adam2.erasedRegion [.set [] (lit "a") (lit "1")]) :=
      .op .erased _
    have hvalue : adam2Value (Adam2.run Adam2.erasedRegion [.set [] (lit "a") (lit "1")])
        (lit "a") = some (ofString "1") := by decide +kernel
    refine ⟨_,rfl,hvalue,?_,?_⟩
    · exact reads_outcome ⟨0,fun fuel _ => presents_adam2 hreach fuel⟩ [fullRead]
    · rw [lists_adam2_iff hreach]
      intro hcond
      cases (hcond.2 (lit "a")).symm.trans hvalue
  obtain ⟨s,t,hformat,hset,hrun⟩ :=
    mapRun_mapX (letters 3000) (by decide +kernel) (by decide +kernel)
  obtain ⟨vars,hvars,hlists⟩ := lists_pspboot_iff hrun
  refine ⟨s,t,hformat,hset,fun hserved => ?_⟩
  rw [hlists,enumerates_mapX hvars,map_singleton,lineOf_mapX] at hserved
  have hfit := hserved.1
  rw [length_formatLine,length_letters] at hfit
  exact absurd hfit (by decide)

end DslG624t.Ticfg
