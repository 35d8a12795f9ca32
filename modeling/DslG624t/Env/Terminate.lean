import DslG624t.Env.ReadOnly

/-!
# Whether setting a variable returns

A call that finds the region full compacts it and calls itself again if it has seen garbage, and
it counts the record it would replace as garbage too.
-/

namespace DslG624t.Env

open CString List Option SplitFirst

variable {cfg : EnvConfig} {fuel : ℕ} {nm val : CStr} {perm : Bool}

def Terminates (cfg : EnvConfig) (s : EnvState) (nm val : CStr) (perm : Bool) : Prop :=
  ∃ x, Returns (fun fuel depth => sysSetenvPerm fuel cfg depth s nm val perm) x

def Log.liveCells {T : EnvTable} (rs : Log T) : ℕ := Log.cells (rs.filter Rec.live)

/-- The variable has another value, and there is no room for a new record beside the live
ones. -/
def Log.Overfull (rs : Log cfg.table) (nm val : CStr) : Prop :=
  ∃ a r b, rs.find cfg nm = some (a,r,b) ∧ r.value ≠ val ∧ r.perm = false ∧
    cfg.size < envCellSize+(rs.liveCells+(newCells cfg nm val).toNat)*envCellSize

section Call

variable {s : LogState cfg} {after : Bytes}

lemma sysSetenvPerm_bytes (nm val : CStr) (perm : Bool) (after : Bytes)
    (hfuel : cfg.size ≤ fuel) (hoff : s.log.off ≤ cfg.size) (hgood : s.log.Good) (depth : ℕ) :
    sysSetenvPerm fuel cfg (depth+1) (s.bytes after) nm val perm =
      match (s.log.plan cfg nm val).2 with
      | .answer => some (.success,s.bytes after)
      | .append old =>
        some (.success,⟨Flash.programAll (image cfg s.log after)
          (Flash.writesAt s.log.off (newHeader cfg nm val perm ++ newText cfg nm val) ++
            (old.map fun x => garbageWrite (image cfg s.log after) x.1.off).toList),s.allocs⟩)
      | .full garbage =>
        if garbage then
          (sysDefragenvWith fuel cfg (sysSetenvPerm fuel cfg depth) (s.bytes after)).bind
            fun (status,s) =>
              if status = .success then sysSetenvPerm fuel cfg depth s nm val perm
              else some (.erescrunch,s)
        else some (.erescrunch,s.bytes after) := by
  obtain ⟨hrs,-⟩ := planCase hgood nm val
  have hmem : (s.bytes after).mem =
      region s.log (replicate (cfg.size-s.log.off) Flash.erased ++ after) := rfl
  rw [sysSetenvPerm,hmem,setenvPlan_region nm val perm hfuel (logEnd_image hoff after),hrs,
    bind_some]
  cases (s.log.plan cfg nm val).2 <;> rfl

lemma terminates_of_not_stuck (hoff : s.log.off ≤ cfg.size) (hgood : s.log.Good)
    (h : ¬ s.log.Stuck nm val) : Terminates cfg (s.bytes after) nm val perm := by
  have hcall {x : Status × EnvState} (hx : ∀ fuel ≥ cfg.size, ∀ depth,
      sysSetenvPerm fuel cfg (depth+1) (s.bytes after) nm val perm = some x) :
      Terminates cfg (s.bytes after) nm val perm := ⟨x,.of_add hx⟩
  have hplan (fuel : ℕ) (hfuel : cfg.size ≤ fuel) :=
    sysSetenvPerm_bytes nm val perm after hfuel hoff hgood
  obtain ⟨-,hp⟩ := planCase hgood nm val
  cases hq : (s.log.plan cfg nm val).2 with
  | answer => exact hcall fun fuel hfuel depth => by rw [hplan fuel hfuel depth,hq]
  | append old => exact hcall fun fuel hfuel depth => by rw [hplan fuel hfuel depth,hq]
  | full garbage =>
    rw [hq] at hp
    cases hp with
    | giveUp hf hfit hgarbage =>
      exact hcall fun fuel hfuel depth => by rw [hplan fuel hfuel depth,hq]; rfl
    | compact hstuck => exact absurd hstuck h

lemma plan_of_stuck {rs : Log cfg.table} (hgood : rs.Good) (h : rs.Stuck nm val) :
    (rs.plan cfg nm val).2 = .full true := by
  obtain ⟨-,hp⟩ := planCase hgood nm val
  obtain ⟨hfit,hfind⟩ := h
  generalize (rs.plan cfg nm val).2 = p at hp
  cases hp with
  | answer hf hr =>
    rw [hf] at hfind
    simp [hfind.1,hfind.2] at hr
  | append hf hfit' => simp [hfit] at hfit'
  | replace hf hv hp hfit' => simp [hfit] at hfit'
  | giveUp hf hfit' hgarbage =>
    rw [hf,hgarbage] at hfind
    cases hfind
  | compact hstuck => rfl

end Call

section Memory

variable {rs : Log cfg.table} {after : Bytes}

lemma sysSetenvPerm_stuck (perm : Bool) (after : Bytes) (hfuel : cfg.size ≤ fuel)
    (hoff : rs.off ≤ cfg.size) (hgood : rs.Good) (h : rs.Stuck nm val) (depth : ℕ) :
    sysSetenvPerm fuel cfg (depth+2) (LogState.bytes ⟨rs,[]⟩ after) nm val perm =
      sysSetenvPerm fuel cfg (depth+1) (LogState.bytes ⟨rs.compact,[]⟩ after) nm val perm := by
  have hd := defragWith_nil (@LogState.setenv cfg (depth+1)) rs
  rw [restore_saved depth hoff,map_some] at hd
  obtain ⟨hbytes,-⟩ :=
    (defragWith_refines hfuel (setenv_refines hfuel after (depth+1)) ⟨rs,[]⟩ hoff).eq_bytes hd
  rw [sysSetenvPerm_bytes (s := ⟨rs,[]⟩) nm val perm after hfuel hoff hgood,plan_of_stuck hgood h]
  simp only [if_true,hbytes,bind_some]

lemma sysSetenvPerm_stuck_one (hfuel : cfg.size ≤ fuel) (hoff : rs.off ≤ cfg.size)
    (hgood : rs.Good) (h : rs.Stuck nm val) :
    sysSetenvPerm fuel cfg 1 (LogState.bytes ⟨rs,[]⟩ after) nm val perm = none := by
  rw [sysSetenvPerm_bytes (s := ⟨rs,[]⟩) nm val perm after hfuel hoff hgood,plan_of_stuck hgood h]
  simp only [if_true]
  obtain ⟨h1,-⟩ | ⟨st,s,h1,h2,-⟩ :=
    defragWith_refines hfuel (setenv_refines hfuel after 0) ⟨rs,[]⟩ hoff
  · rw [h1,bind_none]
  rw [defragWith_nil] at h2
  obtain ⟨t,-,ht⟩ := map_eq_some_iff.mp h2
  cases ht
  rw [h1,bind_some]
  rfl

lemma terminates_of_compact (hoff : rs.off ≤ cfg.size) (hgood : rs.Good) (j : ℕ)
    (h : ¬ Log.Stuck (Log.compact^[j] rs) nm val) :
    Terminates cfg (LogState.bytes ⟨rs,[]⟩ after) nm val perm := by
  induction j generalizing rs with
  | zero => exact terminates_of_not_stuck (s := ⟨rs,[]⟩) hoff hgood h
  | succ j ih =>
    by_cases hstuck : rs.Stuck nm val
    · obtain ⟨x,hx⟩ := ih (off_compact_le hoff) (good_compact rs) h
      exact ⟨x,hx.of_step fun fuel hfuel => sysSetenvPerm_stuck perm after hfuel hoff hgood hstuck⟩
    · exact terminates_of_not_stuck (s := ⟨rs,[]⟩) hoff hgood hstuck

lemma sysSetenvPerm_eq_none (perm : Bool) (after : Bytes) (hfuel : cfg.size ≤ fuel)
    (hoff : rs.off ≤ cfg.size) (hgood : rs.Good)
    (h : ∀ j, Log.Stuck (Log.compact^[j] rs) nm val) (depth : ℕ) :
    sysSetenvPerm fuel cfg depth (LogState.bytes ⟨rs,[]⟩ after) nm val perm = none := by
  induction depth generalizing rs with
  | zero => rfl
  | succ depth ih =>
    cases depth with
    | zero => exact sysSetenvPerm_stuck_one hfuel hoff hgood (h 0)
    | succ depth =>
      rw [sysSetenvPerm_stuck perm after hfuel hoff hgood (h 0)]
      exact ih (off_compact_le hoff) (good_compact rs) fun j => h (j+1)

lemma not_terminates (hoff : rs.off ≤ cfg.size) (hgood : rs.Good)
    (h : ∀ j, Log.Stuck (Log.compact^[j] rs) nm val) :
    ¬ Terminates cfg (LogState.bytes ⟨rs,[]⟩ after) nm val perm := by
  rintro ⟨x,hx⟩
  obtain ⟨fuel,depth,hfuel,hcall⟩ := hx.exists_fuel cfg.size
  rw [sysSetenvPerm_eq_none perm after hfuel hoff hgood h] at hcall
  cases hcall

end Memory

section Sound

variable {rs : Log cfg.table} {after : Bytes}

lemma terminates_of_sound {s : LogState cfg} (hoff : s.log.off ≤ cfg.size) (h : s.log.Sound)
    (hw : ¬ s.Wild) (hc : ¬ s.log.compact.Stuck nm val) : Terminates cfg (s.bytes after) nm val perm := by
  by_cases hstuck : s.log.Stuck nm val
  · obtain ⟨st,s1,hcases,hd⟩ := h.settled.defragWith_returns h.good hoff hw
    have hcall (fuel : ℕ) (hfuel : cfg.size ≤ fuel) (depth : ℕ) :
        sysSetenvPerm fuel cfg (depth+2) (s.bytes after) nm val perm =
          if st = .success then sysSetenvPerm fuel cfg (depth+1) (s1.bytes after) nm val perm
          else some (.erescrunch,s1.bytes after) := by
      rw [sysSetenvPerm_bytes nm val perm after hfuel hoff h.good,plan_of_stuck h.good hstuck]
      have hbytes :=
        (defragWith_refines hfuel (setenv_refines hfuel after (depth+1)) s hoff).eq_bytes (hd depth)
      simp only [if_true,hbytes.1,bind_some]
    obtain ⟨rfl,hlog⟩ | ⟨rfl,hlog⟩ := hcases
    · obtain ⟨x,hx⟩ : Terminates cfg (s1.bytes after) nm val perm :=
        terminates_of_not_stuck (hlog ▸ off_compact_le hoff) (hlog ▸ h.compact.good)
          (hlog.symm ▸ hc)
      exact ⟨x,hx.of_step hcall⟩
    · exact ⟨_,.of_add hcall⟩
  · exact terminates_of_not_stuck hoff h.good hstuck

lemma liveCells_le (rs : Log cfg.table) : rs.liveCells ≤ rs.cells := by
  induction rs with
  | nil => exact le_refl _
  | cons r rs ih =>
    rw [Log.liveCells] at ih ⊢
    cases hl : r.live with
    | false =>
      rw [filter_cons_of_neg (by simp [hl]),Log.cells_cons]
      omega
    | true =>
      rw [filter_cons_of_pos hl,Log.cells_cons,Log.cells_cons]
      omega

lemma cells_map_fresh (rs : Log cfg.table) : Log.cells (rs.map Rec.fresh) = rs.cells := by
  induction rs with
  | nil => rfl
  | cons r rs ih => rw [map_cons,Log.cells_cons,Log.cells_cons,ih,Rec.cells_fresh]

lemma cells_compact (h : rs.Sound) : rs.compact.cells = rs.liveCells := by
  rw [h.compact_eq,cells_map_fresh]
  rfl

lemma filter_live_compact (h : rs.Sound) : rs.compact.filter Rec.live = rs.compact := by
  rw [h.compact_eq]
  refine filter_eq_self.mpr fun x hx => ?_
  obtain ⟨r,-,-,rfl⟩ := mem_filter_fresh hx
  exact r.live_fresh

lemma find_compact {a b : Log cfg.table} {r : Rec cfg.table} (h : rs.Sound)
    (hf : rs.find cfg nm = some (a,r,b)) :
    ∃ a' b', rs.compact.find cfg nm = some (a',r.fresh,b') := by
  obtain ⟨hrs,hm,ha⟩ := splitFirst_eq_some_iff.mp hf
  have hl := Rec.matches_live hm
  rw [h.compact_eq,hrs,filter_append,filter_cons_of_pos hl,map_append,map_cons]
  refine ⟨_,_,splitFirst_append_cons (by rw [Rec.matches_fresh hl]; exact hm) fun x hx => ?_⟩
  obtain ⟨y,hy,hly,rfl⟩ := mem_filter_fresh hx
  rw [Rec.matches_fresh hly]
  exact ha y hy

lemma find_compact_none (h : rs.Sound) (hf : rs.find cfg nm = none) :
    rs.compact.find cfg nm = none := by
  refine splitFirst_eq_none_iff.mpr fun x hx => ?_
  rw [h.compact_eq] at hx
  obtain ⟨r,hr,hl,rfl⟩ := mem_filter_fresh hx
  rw [Rec.matches_fresh hl]
  exact splitFirst_eq_none_iff.mp hf r hr

lemma stuck_of_overfull (h : rs.Overfull nm val) : rs.Stuck nm val := by
  obtain ⟨a,r,b,hf,hv,hp,hsize⟩ := h
  refine ⟨Bool.eq_false_iff.mpr fun hfit => ?_,by rw [hf]; exact ⟨hv,hp⟩⟩
  have hroom := Log.fits_iff.mp hfit
  have hle := liveCells_le rs
  simp only [Log.off,envCellSize] at hroom hsize
  omega

lemma overfull_compact (h : rs.Sound) (ho : rs.Overfull nm val) : rs.compact.Overfull nm val := by
  obtain ⟨a,r,b,hf,hv,hp,hsize⟩ := ho
  obtain ⟨a',b',hf'⟩ := find_compact h hf
  have hlive : rs.compact.liveCells = rs.liveCells := by
    rw [Log.liveCells,filter_live_compact h,cells_compact h]
  exact ⟨a',r.fresh,b',hf',hv,by rw [Rec.perm_fresh,hp,Bool.and_false],hlive ▸ hsize⟩

lemma stuck_iterate_of_overfull (h : rs.Sound) (ho : rs.Overfull nm val) (j : ℕ) :
    Log.Stuck (Log.compact^[j] rs) nm val := by
  induction j generalizing rs with
  | zero => exact stuck_of_overfull ho
  | succ j ih => exact ih h.compact (overfull_compact h ho)

lemma not_stuck_compact (h : rs.Sound) (ho : ¬ rs.Overfull nm val)
    (hstuck : rs.Stuck nm val) : ¬ rs.compact.Stuck nm val := by
  rintro ⟨hfit,hfind⟩
  cases hf : rs.find cfg nm with
  | none =>
    rw [find_compact_none h hf] at hfind
    obtain ⟨x,hx,hl⟩ := any_eq_true.mp hfind
    rw [← filter_live_compact h] at hx
    rw [(mem_filter.mp hx).2] at hl
    cases hl
  | some x =>
    obtain ⟨a,r,b⟩ := x
    have hr := hstuck.2
    rw [hf] at hr
    refine ho ⟨a,r,b,hf,hr.1,hr.2,?_⟩
    have hroom := mt Log.fits_iff.mpr (Bool.eq_false_iff.mp hfit)
    simp only [Log.off,cells_compact h,envCellSize] at hroom ⊢
    omega

end Sound

/-- Every region reached holds a log. On a log a call returns, its allocations succeeding, exactly
if some number of compactions ends the need for one, and on a log without a clash, whatever the
allocations, exactly if the log is not overfull. -/
theorem setenv_terminates_iff :
    (∀ t, EnvReach cfg t → ∃ (s : LogState cfg) (after : Bytes), Holds t s after) ∧
    ∀ (t : EnvState) (s : LogState cfg) (after : Bytes), Holds t s after →
      ∀ (nm val : CStr) (perm : Bool),
        (Terminates cfg ⟨t.mem,[]⟩ nm val perm ↔ ∃ j, ¬ Log.Stuck (Log.compact^[j] s.log) nm val) ∧
        (s.log.Sound → ((∀ allocs, ¬ LogState.Wild (⟨s.log,allocs⟩ : LogState cfg) →
          Terminates cfg ⟨t.mem,allocs⟩ nm val perm) ↔ ¬ s.log.Overfull nm val)) := by
  refine ⟨fun t ht => ht.holds,fun t s after ht nm val perm => ?_⟩
  obtain ⟨rfl,hoff,hgood⟩ := ht
  refine ⟨⟨fun hx => ?_,fun ⟨j,hj⟩ => terminates_of_compact hoff hgood j hj⟩,
    fun h => ⟨fun hx ho => ?_,fun ho allocs hw => ?_⟩⟩
  · by_contra hstuck
    exact not_terminates hoff hgood (not_exists_not.mp hstuck) hx
  · exact not_terminates hoff hgood (stuck_iterate_of_overfull h ho) (hx [] fun hw => nomatch hw.2.2)
  · by_cases hstuck : s.log.Stuck nm val
    · exact terminates_of_sound (s := ⟨s.log,allocs⟩) hoff h hw (not_stuck_compact h ho hstuck)
    · exact terminates_of_not_stuck (s := ⟨s.log,allocs⟩) hoff hgood hstuck

def bigA : Setting ar7Config := ⟨lit "a",letters 3980,false,by decide +kernel⟩

def bigB : Setting ar7Config := ⟨lit "b",letters 3980,false,by decide +kernel⟩

def full : Log ar7Config.table := [bigA.toRec,bigB.toRec]

lemma full_evaluated : Log.fits ar7Config (lit "a") (letters 3980) [] = true ∧
    Log.off [bigA.toRec] ≤ ar7Config.size ∧ Log.find ar7Config (lit "b") [bigA.toRec] = none ∧
    Log.fits ar7Config (lit "b") (letters 3980) [bigA.toRec] = true ∧
    full.off ≤ ar7Config.size ∧ full.Good ∧
    (full.Pairwise fun r x => x.live = true → r.matches ar7Config x.var.name = false) ∧
    full.find ar7Config (lit "a") = some ([],bigA.toRec,[bigB.toRec]) ∧
    bigA.toRec.value ≠ letters 3981 ∧ ar7Config.size <
      envCellSize+(full.liveCells+
        (newCells ar7Config (lit "a") (letters 3981)).toNat)*envCellSize := by
  unfold Log.Good
  decide +kernel

lemma returns_bigA : Answers ar7Config (LogState.bytes (⟨[],[]⟩ : LogState ar7Config) [])
    (.setenv (some (lit "a")) (some (letters 3980)))
    (.status .success,LogState.bytes ⟨[bigA.toRec],[]⟩ []) :=
  returns_setenv (s := ⟨[],[]⟩) (e := bigA) (off_nil_le ar7Config) rfl (by decide)
    (LogState.setenv_append rfl full_evaluated.1) []

lemma returns_bigB : Answers ar7Config (LogState.bytes (⟨[bigA.toRec],[]⟩ : LogState ar7Config) [])
    (.setenv (some (lit "b")) (some (letters 3980)))
    (.status .success,LogState.bytes ⟨full,[]⟩ []) := by
  obtain ⟨-,hoff,hfind,hfit,-⟩ := full_evaluated
  exact returns_setenv (s := ⟨[bigA.toRec],[]⟩) (e := bigB) hoff rfl (by decide)
    (LogState.setenv_append hfind hfit) []

def freed : Log ar7Config.table := [bigA.toRec.kill,bigB.toRec]

lemma freed_evaluated : freed.off ≤ ar7Config.size ∧ freed.Good ∧
    freed.fits ar7Config (lit "c") (letters 3980) = false ∧ freed.find ar7Config (lit "c") = none ∧
    freed.hasGarbage = true ∧ freed.compact.fits ar7Config (lit "c") (letters 3980) = true := by
  unfold Log.Good
  decide +kernel

/-- The region is full and has garbage, so the call compacts it. -/
theorem setenv_terminates_compacting : ∃ s t u v, formatEnvBlock ar7Config ⟨[],[]⟩ = (.success,s) ∧
    Answers ar7Config s (.setenv (some (lit "a")) (some (letters 3980))) (.status .success,t) ∧
    Answers ar7Config t (.setenv (some (lit "b")) (some (letters 3980))) (.status .success,u) ∧
    Answers ar7Config u (.unsetenv (lit "a")) (.status .success,v) ∧
    Holds v ⟨freed,[]⟩ [] ∧ freed.Stuck (lit "c") (letters 3980) ∧
    Terminates ar7Config v (lit "c") (letters 3980) false := by
  obtain ⟨-,-,-,-,hoff,-,-,hfind,-⟩ := full_evaluated
  obtain ⟨hoff',hgood,hfull,hnone,hgarbage,hfit⟩ := freed_evaluated
  have hunset := returns_unsetenv (s := ⟨full,[]⟩) hoff [] (lit "a")
  have heval : LogState.unset (⟨full,[]⟩ : LogState ar7Config) (lit "a") = (.success,⟨freed,[]⟩) := by
    simp only [LogState.unset,hfind]
    rfl
  rw [heval] at hunset
  have hholds : Holds (LogState.bytes ⟨freed,[]⟩ []) (⟨freed,[]⟩ : LogState ar7Config) [] :=
    ⟨rfl,hoff',hgood⟩
  have hstuck : freed.Stuck (lit "c") (letters 3980) := ⟨hfull,by rw [hnone]; exact hgarbage⟩
  have hone : ¬ Log.Stuck (Log.compact^[1] freed) (lit "c") (letters 3980) := by
    rw [Function.iterate_one]
    exact fun hc => Bool.noConfusion (hfit.symm.trans hc.1)
  have hret := (setenv_terminates_iff.2 _ _ _ hholds (lit "c") (letters 3980) false).1.mpr ⟨1,hone⟩
  have hbytes (rs : Log ar7Config.table) : (⟨(LogState.bytes ⟨rs,[]⟩ []).mem,[]⟩ : EnvState) =
      LogState.bytes ⟨rs,[]⟩ [] := rfl
  rw [hbytes] at hret
  exact ⟨_,_,_,_,formatEnvBlock_ar7,returns_bigA,returns_bigB,hunset,hholds,hstuck,hret⟩

theorem setenv_diverges_full : ∃ s t u, formatEnvBlock ar7Config ⟨[],[]⟩ = (.success,s) ∧
    Answers ar7Config s (.setenv (some (lit "a")) (some (letters 3980))) (.status .success,t) ∧
    Answers ar7Config t (.setenv (some (lit "b")) (some (letters 3980))) (.status .success,u) ∧
    ∀ x, ¬ Answers ar7Config u (.setenv (some (lit "a")) (some (letters 3981))) x := by
  obtain ⟨-,-,-,-,hoff,hgood,hclash,hfind,hval,hcells⟩ := full_evaluated
  refine ⟨_,_,_,formatEnvBlock_ar7,returns_bigA,returns_bigB,fun x hx => ?_⟩
  obtain ⟨fuel,depth,hfuel,hcall⟩ := hx.exists_fuel ar7Config.size
  have hstuck := stuck_iterate_of_overfull ⟨hgood,hclash⟩ ⟨_,_,_,hfind,hval,rfl,hcells⟩
  have hnone := sysSetenvPerm_eq_none false [] hfuel hoff hgood hstuck depth
  rw [Call.run_setenv (by decide)] at hcall
  obtain ⟨y,hy,-⟩ := map_eq_some_iff.mp hcall
  cases hnone.symm.trans hy

end DslG624t.Env
