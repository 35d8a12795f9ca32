import DslG624t.Env.Defrag
import DslG624t.Env.Terminate

/-!
# A set that fails

`__sys_setenv` answers `SBL_ERESCRUNCH` when there is no room for the record, by then it may have
compacted the region, or have given up compacting it because an allocation failed.
-/

namespace DslG624t.Env

open CString List Option SplitFirst

variable {cfg : EnvConfig} {fuel : ℕ} {nm val : CStr} {perm : Bool}

variable {s : LogState cfg} {after : Bytes} {t' : EnvState} {depth : ℕ} {e : Setting cfg}
  {rs : Log cfg.table}

lemma valid_of_good (h : rs.Good) : rs.valid = rs.filter Rec.live := by
  refine filter_congr fun r hr => ?_
  cases hl : r.live with
  | false => rfl
  | true => rw [h r hr hl,Bool.and_self]

lemma find?_valid_of_good (h : rs.Good) (name : CStr) :
    rs.valid.find? (Rec.matches cfg name) = rs.find? (Rec.matches cfg name) := by
  have hlive (r : Rec cfg.table) : decide (r.live = true ∧ r.matches cfg name = true) =
      r.matches cfg name := by
    rw [Bool.eq_iff_iff,decide_eq_true_iff]
    exact and_iff_right_of_imp Rec.matches_live
  simp only [valid_of_good h,find?_filter,hlive]

lemma Log.Good.get_eq_find? (h : rs.Good) (name : CStr) :
    (rs.get cfg name).1 = (rs.find? (Rec.matches cfg name)).map Rec.value := by
  rw [find?_eq_map_splitFirst,Log.get,Log.find]
  cases hf : splitFirst (Rec.matches cfg name) rs with
  | none => rfl
  | some x =>
    obtain ⟨a,r,b⟩ := x
    obtain ⟨hrs,hm,-⟩ := splitFirst_eq_some_iff.mp hf
    have hgood : r.good = true :=
      h r (hrs ▸ mem_append_right _ mem_cons_self) (Rec.matches_live hm)
    simp only [hgood,if_true,map_some]

lemma exists_same_of_copied {seen saved : Log cfg.table} {r : Rec cfg.table}
    (h : Log.copied seen saved = true) (hr : r ∈ saved) :
    ∃ y, (seen ++ saved).find? (Rec.takenFor · r) = some y ∧ y.same r = true := by
  induction saved generalizing seen with
  | nil => cases hr
  | cons x saved ih =>
    rw [Log.copied,Bool.and_eq_true] at h
    obtain rfl | hr := mem_cons.mp hr
    · rw [find?_append]
      cases hy : seen.find? (Rec.takenFor · r) with
      | none =>
        have hself : r.takenFor r = true := decide_eq_true_iff.mpr (.inl rfl)
        exact ⟨r,by simp [hself],Rec.same_iff.mpr ⟨rfl,rfl,rfl⟩⟩
      | some y =>
        rw [hy] at h
        exact ⟨y,rfl,h.1⟩
    · have hfind := ih h.2 hr
      rwa [append_assoc,singleton_append] at hfind

section Copied

variable (hgood : rs.Good) (hc : Log.copied [] rs.valid = true)
include hgood hc

lemma standsFor_of_good : rs.compact.StandsFor rs.valid := by
  refine standsFor_compact ?_ hc
  rw [saved_of_good hgood,valid_of_good hgood]

lemma copied_compact : Log.copied [] rs.compact.valid = true :=
  copied_of_pairwise (fun _ hr => (mem_valid.mp hr).2.1)
    ((standsFor_of_good hgood hc).noClash.sublist filter_sublist)

lemma get_compact (name : CStr) : (rs.compact.get cfg name).1 = (rs.get cfg name).1 := by
  rw [(good_compact rs).get_eq_find?,hgood.get_eq_find?,(standsFor_of_good hgood hc).find name,
    find?_valid_of_good hgood,Option.map_map]
  rfl

lemma settled_of_copied : rs.Settled := by
  intro r hr hl
  have hmem : r ∈ rs.valid := mem_valid.mpr ⟨hr,hl,hgood r hr hl⟩
  obtain ⟨y,hy,hsame⟩ := exists_same_of_copied hc hmem
  rw [nil_append,find?_takenFor fun r hr => (mem_valid.mp hr).2.1,find?_valid_of_good hgood] at hy
  have hget := hgood.get_eq_find? r.var.name
  rw [hy,map_some,(Rec.same_iff.mp hsame).2.1,Log.get] at hget
  rw [Log.plan]
  cases hf : rs.find cfg r.var.name with
  | none =>
    rw [hf] at hget
    cases hget
  | some x =>
    obtain ⟨a,x,b⟩ := x
    rw [hf] at hget
    cases hg : x.good with
    | false => simp [hg] at hget
    | true =>
      simp only [hg,if_true,some.injEq] at hget ⊢
      simp only [hget,true_or,if_true]

end Copied

lemma sysSetenvPerm_failed_of_not_stuck (hfuel : cfg.size ≤ fuel) (hoff : s.log.off ≤ cfg.size)
    (hgood : s.log.Good) (hstuck : ¬ s.log.Stuck nm val)
    (h : sysSetenvPerm fuel cfg depth (s.bytes after) nm val perm = some (.erescrunch,t')) :
    t' = s.bytes after := by
  cases depth with
  | zero => cases h
  | succ depth =>
    rw [sysSetenvPerm_bytes nm val perm after hfuel hoff hgood] at h
    obtain ⟨-,hp⟩ := planCase hgood nm val
    generalize (s.log.plan cfg nm val).2 = p at h hp
    cases hp with
    | answer => cases h
    | append => cases h
    | replace => cases h
    | giveUp =>
      cases h
      rfl
    | compact hs => exact absurd hs hstuck

lemma sysSetenvPerm_defrag {st : Status} (hfuel : cfg.size ≤ fuel) (hoff : s.log.off ≤ cfg.size)
    (hgood : s.log.Good) (hstuck : s.log.Stuck nm val)
    (h : sysSetenvPerm fuel cfg (depth+1) (s.bytes after) nm val perm = some (st,t')) :
    ∃ st1 s1, s.defragWith (LogState.setenv depth) = some (st1,s1) ∧ s1.log.off ≤ cfg.size ∧
      (if st1 = .success then sysSetenvPerm fuel cfg depth (s1.bytes after) nm val perm
        else some (.erescrunch,s1.bytes after)) = some (st,t') := by
  rw [sysSetenvPerm_bytes nm val perm after hfuel hoff hgood,plan_of_stuck hgood hstuck] at h
  simp only [if_true] at h
  obtain ⟨⟨st1,t1⟩,hd,hrest⟩ := bind_eq_some_iff.mp h
  obtain ⟨h1,-⟩ | ⟨st1,s1,h1,h2,hoff1⟩ :=
    defragWith_refines hfuel (setenv_refines hfuel after depth) s hoff
  · rw [h1] at hd
    cases hd
  rw [h1] at hd
  cases hd
  exact ⟨st1,s1,h2,hoff1,hrest⟩

lemma sysSetenvPerm_failed (hfuel : cfg.size ≤ fuel) (hoff : s.log.off ≤ cfg.size)
    (hgood : s.log.Good) (hc : Log.copied [] s.log.valid = true)
    (h : sysSetenvPerm fuel cfg depth (s.bytes after) nm val perm = some (.erescrunch,t')) :
    ∃ s' : LogState cfg, t' = s'.bytes after ∧ s'.log.off ≤ cfg.size ∧
      ∀ name, (s'.log.get cfg name).1 = (s.log.get cfg name).1 := by
  induction depth generalizing s with
  | zero => cases h
  | succ depth ih =>
    by_cases hstuck : s.log.Stuck nm val
    · obtain ⟨st,s1,h2,hoff1,hrest⟩ := sysSetenvPerm_defrag hfuel hoff hgood hstuck h
      obtain ⟨rfl,hlog⟩ | ⟨rfl,hlog⟩ := (settled_of_copied hgood hc).defragWith hgood hoff h2
      · -- The region is compacted, and the call fails again.
        obtain ⟨s',ht',hoff',hget⟩ :=
          ih hoff1 (hlog ▸ good_compact _) (hlog ▸ copied_compact hgood hc) hrest
        refine ⟨s',ht',hoff',fun name => ?_⟩
        rw [hget,hlog,get_compact hgood hc]
      · -- An allocation failed before the region was erased.
        cases hrest
        exact ⟨s1,rfl,hoff1,fun name => by rw [hlog]⟩
    · have ht' := sysSetenvPerm_failed_of_not_stuck hfuel hoff hgood hstuck h
      exact ⟨s,ht',hoff,fun _ => rfl⟩

/-- The compaction is given up before the region is erased, and each record saved until then is
answered at once when it is set again. -/
def LogState.GivenUp (s : LogState cfg) : Prop :=
  ∃ saved allocs, (∀ g, s.defragWith g = (restore g saved ⟨s.log,allocs⟩).map fun s => (.erescrunch,s)) ∧
    ∀ r ∈ saved, s.log.plan cfg r.var.name r.value = (s.log,.answer)

lemma sysSetenvPerm_givenUp (hfuel : cfg.size ≤ fuel) (hoff : s.log.off ≤ cfg.size)
    (hgood : s.log.Good) (hstuck : s.log.Stuck nm val) (hg : s.GivenUp)
    (h : sysSetenvPerm fuel cfg depth (s.bytes after) nm val perm = some (.erescrunch,t')) :
    ∃ allocs, t' = LogState.bytes ⟨s.log,allocs⟩ after := by
  cases depth with
  | zero => cases h
  | succ depth =>
    obtain ⟨st,s1,h2,-,hrest⟩ := sysSetenvPerm_defrag hfuel hoff hgood hstuck h
    obtain ⟨saved,allocs,hd,hsaved⟩ := hg
    rw [hd] at h2
    refine ⟨allocs,?_⟩
    cases saved with
    | nil =>
      cases h2
      cases hrest
      rfl
    | cons r saved =>
      cases depth with
      | zero => cases h2
      | succ depth =>
        rw [restore_answered depth allocs hsaved] at h2
        cases h2
        cases hrest
        rfl

/-- Every region reached holds a log. A call that fails on it changes nothing that is read if no
record is taken for a different one behind it, if the call does not compact the log, or if it
gives up doing so in time. -/
theorem reads_of_setenv_failed {t : EnvState} (ht : EnvReach cfg t) :
    (∃ (s : LogState cfg) (after : Bytes), Holds t s after) ∧
    ∀ (s : LogState cfg) (after : Bytes), Holds t s after → ∀ (nm val : CStr) (perm : Bool),
      Log.copied [] s.log.valid = true ∨ ¬ s.log.Stuck nm val ∨ s.GivenUp →
      ∀ t', Returns (fun fuel depth => sysSetenvPerm fuel cfg depth t nm val perm) (.erescrunch,t') →
        ∀ name v, Reads cfg t' name v ↔ Reads cfg t name v := by
  refine ⟨ht.holds,fun s after hs nm val perm hcond t' hret name v => ?_⟩
  obtain ⟨rfl,hoff,hgood⟩ := hs
  obtain ⟨fuel,depth,hfuel,hcall⟩ := hret.exists_fuel cfg.size
  by_cases hstuck : s.log.Stuck nm val
  · obtain hc | hns | hg := hcond
    · obtain ⟨s',rfl,hoff',hget⟩ := sysSetenvPerm_failed hfuel hoff hgood hc hcall
      rw [reads_iff hoff',reads_iff hoff,hget]
    · exact absurd hstuck hns
    · obtain ⟨allocs,rfl⟩ := sysSetenvPerm_givenUp hfuel hoff hgood hstuck hg hcall
      rw [reads_iff (s := ⟨s.log,allocs⟩) hoff,reads_iff hoff]
  · rw [sysSetenvPerm_failed_of_not_stuck hfuel hoff hgood hstuck hcall]

def fooBar : Setting ar7Config := ⟨lit "foo",lit "bar",false,by decide +kernel⟩

def fooBaz : Setting ar7Config := ⟨lit "foo",lit "baz",false,by decide +kernel⟩

def promptFoo : Setting ar7Config := ⟨lit "PROMPT" nulFree_prompt,lit "foo",false,by decide +kernel⟩

/-- There is no room for a third big value. -/
def Log.NoRoom (rs : Log ar7Config.table) (garbage : Bool) : Prop :=
  rs.off ≤ ar7Config.size ∧ rs.fits ar7Config (lit "x" nulFree_x) (letters 3980) = false ∧
    rs.find ar7Config (lit "x" nulFree_x) = none ∧ rs.hasGarbage = garbage

lemma reads_noRoom {rs : Log ar7Config.table} {garbage : Bool} (h : rs.NoRoom garbage) {name : CStr}
    {v : Option CStr} : Reads ar7Config (LogState.bytes ⟨rs,[]⟩ []) name v ↔
      (rs.get ar7Config name).1 = v :=
  reads_iff (s := ⟨rs,[]⟩) h.1

abbrev Log.setBig (rs : Log ar7Config.table) (fuel depth : ℕ) : Option (Status × EnvState) :=
  sysSetenvPerm fuel ar7Config depth (LogState.bytes ⟨rs,[]⟩ []) (lit "x" nulFree_x)
    (letters 3980) false

section

variable {rs : Log ar7Config.table} (hgood : rs.Good)
include hgood

lemma returns_noRoom (h : rs.NoRoom false) :
    Returns rs.setBig (.erescrunch,LogState.bytes ⟨rs,[]⟩ []) := by
  obtain ⟨hoff,hfit,hfind,hgarbage⟩ := h
  refine .of_add (n := ar7Config.size) (d := 1) fun fuel hfuel depth => ?_
  rw [Log.setBig,sysSetenvPerm_bytes (s := ⟨rs,[]⟩) _ _ _ _ hfuel hoff hgood]
  simp only [Log.plan,hfind,hfit,hgarbage,Bool.false_eq_true,if_false]

lemma returns_setBig_compact (h : rs.NoRoom true) {x : Status × EnvState}
    (hx : Returns rs.compact.setBig x) : Returns rs.setBig x := by
  obtain ⟨hoff,hfit,hfind,hgarbage⟩ := h
  have hstuck : rs.Stuck (lit "x") (letters 3980) := ⟨hfit,by rwa [hfind]⟩
  exact hx.of_step fun fuel hfuel => sysSetenvPerm_stuck false [] hfuel hoff hgood hstuck

end

/-- There is room for the two big values. -/
def Log.Room (rs : Log ar7Config.table) : Prop :=
  (rs.off ≤ ar7Config.size ∧ rs.find ar7Config bigA.name = none ∧
    rs.fits ar7Config bigA.name bigA.value = true) ∧
  Log.off (rs ++ [bigA.toRec]) ≤ ar7Config.size ∧
  Log.find ar7Config bigB.name (rs ++ [bigA.toRec]) = none ∧
  Log.fits ar7Config bigB.name bigB.value (rs ++ [bigA.toRec]) = true

lemma EnvReach.full {rs : Log ar7Config.table} (h : EnvReach ar7Config (LogState.bytes ⟨rs,[]⟩ []))
    (hr : rs.Room) :
    EnvReach ar7Config (LogState.bytes ⟨rs ++ [bigA.toRec] ++ [bigB.toRec],[]⟩ []) := by
  obtain ⟨⟨hoffa,hfa,hfita⟩,hoffb,hfb,hfitb⟩ := hr
  exact (h.append rfl (by decide) hoffa hfa hfita).append rfl (by decide) hoffb hfb hfitb

def twice : Log ar7Config.table := [fooBar.toRec.kill,fooBaz.toRec,bigA.toRec,bigB.toRec]

def clash : Log ar7Config.table :=
  [fooBar.toRec.kill,promptFoo.toRec,fooBaz.toRec,bigA.toRec,bigB.toRec]

lemma twice_evaluated : Log.Room [fooBar.toRec.kill,fooBaz.toRec] ∧ twice.Good ∧
    Log.copied [] twice.valid = true ∧
    twice.NoRoom true ∧ twice.compact.NoRoom false ∧
    (twice.get ar7Config (lit "foo")).1 = some (lit "baz") := by
  unfold Log.Room Log.Good Log.NoRoom
  decide +kernel

lemma clash_evaluated : Log.Room [fooBar.toRec.kill,promptFoo.toRec,fooBaz.toRec] ∧ clash.Good ∧
    clash.NoRoom true ∧ clash.compact.NoRoom true ∧ clash.compact.compact.NoRoom false ∧
    (clash.get ar7Config (lit "PROMPT")).1 = some (lit "foo") ∧
    (clash.compact.compact.get ar7Config (lit "PROMPT")).1 = none := by
  unfold Log.Room Log.Good Log.NoRoom
  decide +kernel

lemma reach_fooBar : EnvReach ar7Config (LogState.bytes ⟨[fooBar.toRec],[]⟩ []) :=
  (EnvReach.format formatEnvBlock_ar7).append (e := fooBar) rfl (by decide) (off_nil_le _) rfl (by decide)

lemma reach_twice : EnvReach ar7Config (LogState.bytes ⟨twice,[]⟩ []) := by
  have hf : Log.find ar7Config fooBaz.name [fooBar.toRec] = some ([],fooBar.toRec,[]) := by decide
  exact (reach_fooBar.replace rfl (by decide) (by decide) hf (by decide) (by decide) rfl (by decide)).full
    twice_evaluated.1

lemma reach_clash : EnvReach ar7Config (LogState.bytes ⟨clash,[]⟩ []) := by
  have hreach := reach_fooBar.append (e := promptFoo) rfl (by decide) (by decide) (by decide) (by decide)
  have hf : Log.find ar7Config fooBaz.name [fooBar.toRec,promptFoo.toRec] =
      some ([],fooBar.toRec,[promptFoo.toRec]) := by decide
  exact (hreach.replace rfl (by decide) (by decide) hf (by decide) (by decide) rfl (by decide)).full
    clash_evaluated.1

lemma failed_twice :
    Returns twice.setBig (.erescrunch,LogState.bytes ⟨twice.compact,[]⟩ []) := by
  obtain ⟨-,hgood,-,h,hc,-⟩ := twice_evaluated
  exact returns_setBig_compact hgood h (returns_noRoom (good_compact _) hc)

lemma failed_clash :
    Returns clash.setBig (.erescrunch,LogState.bytes ⟨clash.compact.compact,[]⟩ []) := by
  obtain ⟨-,hgood,h,hc,hcc,-,-⟩ := clash_evaluated
  exact returns_setBig_compact hgood h
    (returns_setBig_compact (good_compact _) hc (returns_noRoom (good_compact _) hcc))

/-- The call compacts the region and fails, and all variables read as before. -/
theorem reads_of_setenv_failed_twice : ∃ t t', EnvReach ar7Config t ∧
    Returns (fun fuel depth => sysSetenvPerm fuel ar7Config depth t (lit "x") (letters 3980) false)
      (.erescrunch,t') ∧ Reads ar7Config t (lit "foo") (some (lit "baz")) ∧
    ∀ name v, Reads ar7Config t' name v ↔ Reads ar7Config t name v := by
  obtain ⟨-,hgood,hc,hroom,-,hget⟩ := twice_evaluated
  exact ⟨_,_,reach_twice,failed_twice,(reads_noRoom hroom).mpr hget,
    (reads_of_setenv_failed reach_twice).2 ⟨twice,[]⟩ [] ⟨rfl,hroom.1,hgood⟩ _ _ _ (.inl hc) _
      failed_twice⟩

theorem setenv_failed_loses : ∃ t t', EnvReach ar7Config t ∧
    Returns (fun fuel depth => sysSetenvPerm fuel ar7Config depth t (lit "x") (letters 3980) false)
      (.erescrunch,t') ∧
    Reads ar7Config t (lit "PROMPT") (some (lit "foo")) ∧
      Reads ar7Config t' (lit "PROMPT") none := by
  obtain ⟨-,-,h,-,hcc,hget,hlost⟩ := clash_evaluated
  exact ⟨_,_,reach_clash,failed_clash,(reads_noRoom h).mpr hget,(reads_noRoom hcc).mpr hlost⟩

end DslG624t.Env
