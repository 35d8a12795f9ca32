import DslG624t.Env.Sound

/-!
# What compacting keeps

The save loop of `sys_defragenv` goes through the live records by their numbers, and turns a
record with a wrong checksum into garbage on its way.
-/

namespace DslG624t.Env

open Bool CString List Option SplitFirst

variable {cfg : EnvConfig}

def Log.valid {T : EnvTable} (rs : Log T) : Log T := rs.filter fun r => r.live && r.good

/-- Among the live records, each run of wrong checksums that a right one follows is of even
length; `odd` says whether the part of it before `rs` is of odd length. -/
def Log.EvenRuns {T : EnvTable} : Log T → Bool → Prop
  | [], _ => True
  | r :: rs, odd =>
    if r.live then
      if r.good then odd = false ∧ Log.EvenRuns rs false else Log.EvenRuns rs !odd
    else Log.EvenRuns rs odd

def Rec.same {T : EnvTable} (r x : Rec T) : Bool :=
  r.var = x.var ∧ r.value = x.value ∧ r.perm = x.perm

/-- `GetEnvBlockByName` takes `r` for a record of the variable of `x`: it is one, or it is one of
a predefined variable that has the name of `x` as its value. -/
def Rec.takenFor {T : EnvTable} (r x : Rec T) : Bool :=
  r.var = x.var ∨ r.var.isDyn = false ∧ x.var.isDyn = true ∧ r.value = x.var.name

/-- The first record in front that is taken for a record, if there is one, is the same record
once more; `seen` is the part in front of `rs`. -/
def Log.copied {T : EnvTable} : Log T → Log T → Bool
  | _, [] => true
  | seen, x :: rs =>
    (seen.find? (Rec.takenFor · x)).all (Rec.same · x) && Log.copied (seen ++ [x]) rs

/-- No variable with a right checksum is lost: each has its record again, with the same flag, and
what could be read still can. -/
structure Log.KeptIn (rs rs' : Log cfg.table) (after : Bytes) : Prop where
  record : ∀ r ∈ rs.valid, ∃ x ∈ rs', x.live = true ∧ x.good = true ∧ x.var = r.var ∧
    x.value = r.value ∧ x.perm = r.perm
  value : ∀ nm v, Reads cfg (LogState.bytes ⟨rs,[]⟩ after) nm (some v) →
    Reads cfg (LogState.bytes ⟨rs',[]⟩ after) nm (some v)

section valid

variable {T : EnvTable} {rs : Log T} {r : Rec T}

lemma mem_valid : r ∈ rs.valid ↔ r ∈ rs ∧ r.live = true ∧ r.good = true := by
  rw [Log.valid,mem_filter,and_eq_true]

lemma valid_cons_of_live (rs : Log T) (hl : r.live = true) :
    Log.valid (r :: rs) = if r.good then r :: rs.valid else rs.valid := by
  rw [Log.valid,filter_cons,hl,Bool.true_and]
  rfl

lemma valid_cons_of_dead (rs : Log T) (hl : r.live = false) : Log.valid (r :: rs) = rs.valid := by
  rw [Log.valid,filter_cons_of_neg (by simp [hl])]
  rfl

end valid

lemma saved_sublist (skip : Bool) (rs : Log cfg.table) : (Log.saved skip rs).Sublist rs.valid := by
  induction rs generalizing skip with
  | nil => exact List.Sublist.refl _
  | cons r rs ih =>
    rw [Log.saved]
    cases hl : r.live with
    | false =>
      rw [valid_cons_of_dead rs hl]
      exact ih skip
    | true =>
      rw [valid_cons_of_live rs hl]
      simp only [Bool.not_true,Bool.false_eq_true,if_false]
      cases r.good with
      | false => cases skip <;> exact ih _
      | true =>
        cases skip with
        | false => exact (ih false).cons_cons r
        | true => exact (ih false).cons r

lemma saved_eq_valid_iff (skip : Bool) (rs : Log cfg.table) :
    Log.saved skip rs = rs.valid ↔ rs.EvenRuns skip := by
  induction rs generalizing skip with
  | nil => exact iff_of_true rfl trivial
  | cons r rs ih =>
    rw [Log.saved,Log.EvenRuns]
    cases hl : r.live with
    | false =>
      rw [valid_cons_of_dead rs hl]
      exact ih skip
    | true =>
      rw [valid_cons_of_live rs hl]
      simp only [Bool.not_true,Bool.false_eq_true,if_false,if_true]
      cases r.good with
      | false => cases skip <;> exact ih _
      | true =>
        cases skip with
        | false => simpa using ih false
        | true =>
          -- The record is left out, and nothing can make up for it.
          refine iff_of_false (fun heq => ?_) (fun h => by cases h.1)
          have hle := (saved_sublist false rs).length_le
          have hlen := congrArg length heq
          simp only [if_true,length_cons] at hlen
          omega

instance (rs : Log cfg.table) (odd : Bool) : Decidable (rs.EvenRuns odd) :=
  decidable_of_iff _ (saved_eq_valid_iff odd rs)

section Add

variable {rs saved : Log cfg.table} {r x : Rec cfg.table}

lemma liveCount_replace (a b : Log cfg.table) (hl : x.live = true) (r : Rec cfg.table) :
    Log.liveCount (a ++ x.kill :: (b ++ [r.fresh])) = Log.liveCount (a ++ x :: b) := by
  simp only [Log.liveCount_append,Log.liveCount_cons,hl,Rec.live_kill,Rec.live_fresh,if_true,
    false_eq_true,if_false]
  simp only [Log.liveCount,countP_nil]
  omega

lemma liveCount_add (rs : Log cfg.table) (r : Rec cfg.table) :
    Log.liveCount (rs.add r) = rs.liveCount+if (rs.find cfg r.var.name).isNone then 1 else 0 := by
  rw [Log.add]
  cases hf : rs.find cfg r.var.name with
  | none => exact liveCount_append_singleton rs r.fresh
  | some y =>
    obtain ⟨a,x,b⟩ := y
    obtain ⟨rfl,hm,-⟩ := splitFirst_eq_some_iff.mp hf
    have hcount := liveCount_replace a b (Rec.matches_live hm) r
    dsimp only
    split
    · split
      · rfl
      · exact hcount
    · rw [append_assoc,cons_append]
      exact hcount

lemma liveCount_foldl_add_le (saved rs : Log cfg.table) :
    Log.liveCount (saved.foldl Log.add rs) ≤ rs.liveCount+saved.length := by
  induction saved generalizing rs with
  | nil => exact le_refl _
  | cons r saved ih =>
    have h := ih (rs.add r)
    have hadd := liveCount_add rs r
    rw [foldl_cons,length_cons]
    split at hadd <;> omega

lemma pairwise_of_liveCount (hl : ∀ r ∈ saved, r.live = true)
    (h : Log.liveCount (saved.foldl Log.add rs) = rs.liveCount+saved.length) :
    (∀ x ∈ rs, ∀ r ∈ saved, x.matches cfg r.var.name = false) ∧
      saved.Pairwise fun r x => r.matches cfg x.var.name = false := by
  induction saved generalizing rs with
  | nil => exact ⟨by simp,.nil⟩
  | cons r saved ih =>
    obtain ⟨hr,hl⟩ := forall_mem_cons.mp hl
    have hle := liveCount_foldl_add_le saved (rs.add r)
    have hadd := liveCount_add rs r
    rw [foldl_cons,length_cons] at h
    cases hf : rs.find cfg r.var.name with
    | some y =>
      rw [hf,if_neg (by simp)] at hadd
      omega
    | none =>
      have heq : rs.add r = rs ++ [r.fresh] := by rw [Log.add,hf]
      rw [hf,isNone_none,if_pos rfl] at hadd
      have hcount : Log.liveCount (saved.foldl Log.add (rs.add r)) =
          Log.liveCount (rs.add r)+saved.length := by omega
      obtain ⟨hrs,hpair⟩ := ih hl hcount
      rw [heq] at hrs
      refine ⟨fun x hx y hy => ?_,pairwise_cons.mpr ⟨fun y hy => ?_,hpair⟩⟩
      · obtain rfl | hy := mem_cons.mp hy
        · exact splitFirst_eq_none_iff.mp hf x hx
        · exact hrs x (mem_append_left _ hx) y hy
      · rw [← Rec.matches_fresh hr]
        exact hrs r.fresh (mem_append_right _ mem_cons_self) y hy

lemma mem_compact (hx : x ∈ rs.compact) (hl : x.live = true) :
    ∃ r ∈ Log.saved false rs, x = r.fresh := by
  have hfold (saved rs : Log cfg.table) (hx : x ∈ saved.foldl Log.add rs) :
      x ∈ rs ∨ ∃ r ∈ saved, x = r.fresh := by
    induction saved generalizing rs with
    | nil => exact .inl hx
    | cons r saved ih =>
      obtain hx | ⟨y,hy,rfl⟩ := ih (rs.add r) hx
      · exact (mem_add hx hl).imp_right fun h => ⟨r,mem_cons_self,h⟩
      · exact .inr ⟨y,mem_cons_of_mem _ hy,rfl⟩
  obtain hx | h := hfold _ [] hx
  · cases hx
  · exact h

end Add

namespace Rec

variable {r x : Rec cfg.table}

lemma same_iff : r.same x = true ↔ r.var = x.var ∧ r.value = x.value ∧ r.perm = x.perm :=
  decide_eq_true_iff

lemma matches_of_same (h : r.same x = true) (hr : r.live = true) (hx : x.live = true) (nm : CStr) :
    r.matches cfg nm = x.matches cfg nm := by
  obtain ⟨hvar,hvalue,-⟩ := same_iff.mp h
  rw [Rec.matches,Rec.matches,hr,hx,hvar,Rec.key,Rec.key,hvar,hvalue]

lemma takenFor_eq (hl : r.live = true) (x : Rec cfg.table) :
    r.takenFor x = r.matches cfg x.var.name := by
  rw [Bool.eq_iff_iff,takenFor,decide_eq_true_iff]
  have hidx : cfg.table.index x.var.name = x.var.num := by
    rw [← Var.num_ofName,Var.ofName_name]
  constructor
  · rintro (hvar | ⟨hr,hx,hval⟩)
    · exact matches_of_var hl (hvar.trans (Var.ofName_name x.var).symm)
    rw [Var.isDyn_eq,decide_eq_true_iff] at hx
    have hkey : r.key = x.var.name := by
      rw [Rec.key]
      cases hv : r.var with
      | pre i hi => exact hval
      | dyn nm hnm =>
        rw [hv] at hr
        cases hr
    simp [Rec.matches,hl,hidx,hx,hkey]
  · intro hm
    refine or_iff_not_imp_left.mpr fun hv => ?_
    obtain ⟨hi,hr,hval⟩ := value_of_matches hm (by rwa [Var.ofName_name])
    exact ⟨hr,by rw [Var.isDyn_eq,← hidx,hi]; rfl,hval⟩

end Rec

lemma find?_takenFor {seen : Log cfg.table} (hl : ∀ r ∈ seen, r.live = true) (x : Rec cfg.table) :
    seen.find? (Rec.takenFor · x) = seen.find? (Rec.matches cfg x.var.name) := by
  induction seen with
  | nil => rfl
  | cons r seen ih =>
    obtain ⟨hr,hl⟩ := forall_mem_cons.mp hl
    rw [find?_cons,find?_cons,Rec.takenFor_eq hr,ih hl]

lemma copied_of_pairwise {seen rs : Log cfg.table} (hl : ∀ r ∈ seen ++ rs, r.live = true)
    (h : (seen ++ rs).Pairwise fun r x => r.matches cfg x.var.name = false) :
    Log.copied seen rs = true := by
  induction rs generalizing seen with
  | nil => rfl
  | cons x rs ih =>
    have hnone : seen.find? (Rec.takenFor · x) = none := by
      rw [find?_takenFor fun r hr => hl r (mem_append_left _ hr),find?_eq_none]
      intro r hr
      rw [(pairwise_append.mp h).2.2 r hr x mem_cons_self]
      decide
    rw [Log.copied,hnone,all_none,Bool.true_and]
    exact ih (by simpa using hl) (by simpa using h)

/-- A log stands for the records `seen`: it has no clash, by every name the same record is found,
and each has an equal one there. -/
structure Log.StandsFor (rs seen : Log cfg.table) : Prop where
  noClash : rs.Pairwise fun r x => r.matches cfg x.var.name = false
  find : ∀ nm, rs.find? (Rec.matches cfg nm) = (seen.find? (Rec.matches cfg nm)).map Rec.fresh
  record : ∀ r ∈ seen, ∃ x ∈ seen, x.fresh ∈ rs ∧ x.same r = true

namespace Log.StandsFor

variable {rs seen saved : Log cfg.table} {x : Rec cfg.table}

lemma append (h : rs.StandsFor seen) (hl : x.live = true) (hf : rs.find cfg x.var.name = none) :
    Log.StandsFor (rs ++ [x.fresh]) (seen ++ [x]) where
  noClash := by
    refine pairwise_append.mpr ⟨h.noClash,pairwise_singleton _ _,fun y hy z hz => ?_⟩
    rw [mem_singleton.mp hz,Rec.var_fresh]
    exact splitFirst_eq_none_iff.mp hf y hy
  find nm := by
    have hx : find? (Rec.matches cfg nm) [x.fresh] = (find? (Rec.matches cfg nm) [x]).map Rec.fresh := by
      rw [find?_singleton,find?_singleton,Rec.matches_fresh hl]
      split <;> rfl
    rw [find?_append,find?_append,h.find nm,hx]
    cases seen.find? (Rec.matches cfg nm) <;> rfl
  record r hr := by
    obtain hr | hr := mem_append.mp hr
    · obtain ⟨y,hy,hrs,hsame⟩ := h.record r hr
      exact ⟨y,mem_append_left _ hy,mem_append_left _ hrs,hsame⟩
    · obtain rfl := mem_singleton.mp hr
      exact ⟨r,mem_append_right _ hr,mem_append_right _ mem_cons_self,Rec.same_iff.mpr ⟨rfl,rfl,rfl⟩⟩

lemma again {y : Rec cfg.table} (h : rs.StandsFor seen) (hseen : ∀ r ∈ seen, r.live = true)
    (hl : x.live = true) (hy : seen.find? (Rec.takenFor · x) = some y) (hsame : y.same x = true) :
    rs.StandsFor (seen ++ [x]) where
  noClash := h.noClash
  find nm := by
    have hmem := mem_of_find?_eq_some hy
    rw [h.find nm,find?_append]
    cases hf : seen.find? (Rec.matches cfg nm) with
    | some r => rfl
    | none =>
      have hx := find?_eq_none.mp hf y hmem
      rw [Rec.matches_of_same hsame (hseen y hmem) hl] at hx
      rw [find?_cons_of_neg hx]
      rfl
  record r hr := by
    obtain hr | hr := mem_append.mp hr
    · obtain ⟨z,hz,hrs,hzr⟩ := h.record r hr
      exact ⟨z,mem_append_left _ hz,hrs,hzr⟩
    · obtain rfl := mem_singleton.mp hr
      obtain ⟨z,hz,hrs,hzy⟩ := h.record y (mem_of_find?_eq_some hy)
      obtain ⟨hvar,hvalue,hperm⟩ := Rec.same_iff.mp hzy
      obtain ⟨hvar',hvalue',hperm'⟩ := Rec.same_iff.mp hsame
      exact ⟨z,mem_append_left _ hz,hrs,
        Rec.same_iff.mpr ⟨hvar.trans hvar',hvalue.trans hvalue',hperm.trans hperm'⟩⟩

lemma add (h : rs.StandsFor seen) (hseen : ∀ r ∈ seen, r.live = true) (hl : x.live = true)
    (hx : (seen.find? (Rec.takenFor · x)).all (Rec.same · x) = true) :
    (rs.add x).StandsFor (seen ++ [x]) := by
  have hfind := h.find x.var.name
  rw [find?_eq_map_splitFirst,← find?_takenFor hseen] at hfind
  rw [Log.add,Log.find]
  cases hy : seen.find? (Rec.takenFor · x) with
  | none =>
    rw [hy,map_none,map_eq_none_iff] at hfind
    rw [hfind]
    exact h.append hl hfind
  | some y =>
    rw [hy] at hx hfind
    obtain ⟨⟨a,z,b⟩,hsplit,rfl⟩ := map_eq_some_iff.mp hfind
    have hvalue : y.fresh.value = x.value := (Rec.same_iff.mp hx).2.1
    simp only [hsplit,y.good_fresh,if_true]
    rw [if_pos (.inl hvalue)]
    exact h.again hseen hl hy hx

lemma foldl_add (h : rs.StandsFor seen) (hl : ∀ r ∈ seen ++ saved, r.live = true)
    (hc : Log.copied seen saved = true) : Log.StandsFor (saved.foldl Log.add rs) (seen ++ saved) := by
  induction saved generalizing rs seen with
  | nil => rwa [append_nil]
  | cons x saved ih =>
    rw [Log.copied,and_eq_true] at hc
    have hadd := h.add (fun r hr => hl r (mem_append_left _ hr))
      (hl x (mem_append_right _ mem_cons_self)) hc.1
    have hfold := ih hadd (by simpa using hl) hc.2
    rwa [append_assoc,singleton_append] at hfold

end Log.StandsFor

lemma standsFor_compact {rs : Log cfg.table} (hsaved : Log.saved false rs = rs.valid)
    (hc : Log.copied [] rs.valid = true) : rs.compact.StandsFor rs.valid := by
  have hnil : Log.StandsFor ([] : Log cfg.table) [] := ⟨.nil,fun _ => rfl,nofun⟩
  rw [Log.compact,hsaved]
  exact hnil.foldl_add (fun r hr => (mem_valid.mp hr).2.1) hc

section Kept

variable {rs : Log cfg.table} {after : Bytes}

lemma Log.KeptIn.length_le {rs' : Log cfg.table}
    (hne : rs.valid.Pairwise fun r x => r.same x = false) (h : rs.KeptIn rs' after) :
    rs.valid.length ≤ rs'.liveCount := by
  let triple (r : Rec cfg.table) := (r.var,r.value,r.perm)
  have hnodup : (rs.valid.map triple).Nodup := by
    refine pairwise_map.mpr (hne.imp fun {r x} hrx heq => ?_)
    obtain ⟨hvar,hvalue,hperm⟩ : r.var = x.var ∧ r.value = x.value ∧ r.perm = x.perm := by
      simpa [triple] using heq
    rw [Rec.same_iff.mpr ⟨hvar,hvalue,hperm⟩] at hrx
    cases hrx
  have hsub : rs.valid.map triple ⊆ (rs'.filter Rec.live).map triple := by
    intro v hv
    obtain ⟨r,hr,rfl⟩ := mem_map.mp hv
    obtain ⟨x,hx,hl,-,hvar,hvalue,hperm⟩ := h.record r hr
    exact mem_map.mpr ⟨x,mem_filter.mpr ⟨hx,hl⟩,by simp only [triple,hvar,hvalue,hperm]⟩
  have hle := (hnodup.subperm hsub).length_le
  rwa [length_map,length_map,← countP_eq_length_filter] at hle

lemma Log.KeptIn.of_compact (hne : rs.valid.Pairwise fun r x => r.same x = false)
    (h : rs.KeptIn rs.compact after) :
    Log.saved false rs = rs.valid ∧ Log.copied [] rs.valid = true ∧
      (cfg.permanentVariables = true ∨ ∀ r ∈ rs.valid, r.perm = false) := by
  have hle := h.length_le hne
  have hsub := saved_sublist false rs
  have hcount := liveCount_foldl_add_le (Log.saved false rs) []
  have hnil : Log.liveCount ([] : Log cfg.table) = 0 := rfl
  rw [← Log.compact] at hcount
  have hsaved : Log.saved false rs = rs.valid :=
    hsub.eq_of_length (le_antisymm hsub.length_le (by omega))
  have hlen := congrArg length hsaved
  have hall : Log.liveCount ((Log.saved false rs).foldl Log.add []) =
      Log.liveCount ([] : Log cfg.table)+(Log.saved false rs).length := by
    rw [← Log.compact]
    omega
  obtain ⟨-,hpair⟩ := pairwise_of_liveCount (fun r hr => (mem_saved hr).2.1) hall
  refine ⟨hsaved,copied_of_pairwise (fun r hr => (mem_valid.mp hr).2.1) (hsaved ▸ hpair),?_⟩
  cases hperm : cfg.permanentVariables with
  | true => exact .inl rfl
  | false =>
    refine .inr fun r hr => ?_
    obtain ⟨x,hx,hl,-,-,-,hp⟩ := h.record r hr
    obtain ⟨y,-,rfl⟩ := mem_compact hx hl
    rw [← hp,Rec.perm_fresh,hperm,Bool.false_and]

lemma find?_valid {nm v : CStr} (h : (rs.get cfg nm).1 = some v) :
    ∃ r, rs.valid.find? (Rec.matches cfg nm) = some r ∧ r.value = v := by
  rw [Log.get] at h
  cases hf : rs.find cfg nm with
  | none =>
    rw [hf] at h
    cases h
  | some y =>
    obtain ⟨a,r,b⟩ := y
    obtain ⟨rfl,hm,ha⟩ := splitFirst_eq_some_iff.mp hf
    cases hg : r.good with
    | false => simp [hf,hg] at h
    | true =>
      simp only [hf,hg,if_true,some.injEq] at h
      have hsplit : Log.valid (a ++ r :: b) = Log.valid a ++ r :: Log.valid b := by
        simp [Log.valid,Rec.matches_live hm,hg]
      have hfirst := splitFirst_append_cons (b := Log.valid b) hm fun x hx =>
        ha x (mem_valid.mp hx).1
      exact ⟨r,by rw [hsplit,find?_eq_map_splitFirst,hfirst]; rfl,h⟩

lemma Log.KeptIn.compact (hoff : rs.off ≤ cfg.size) (hsaved : Log.saved false rs = rs.valid)
    (hc : Log.copied [] rs.valid = true)
    (hperm : cfg.permanentVariables = true ∨ ∀ r ∈ rs.valid, r.perm = false) :
    rs.KeptIn rs.compact after := by
  have hstands := standsFor_compact hsaved hc
  constructor
  · intro r hr
    obtain ⟨x,hx,hmem,hsame⟩ := hstands.record r hr
    obtain ⟨hvar,hvalue,hflag⟩ := Rec.same_iff.mp hsame
    refine ⟨x.fresh,hmem,x.live_fresh,x.good_fresh,x.var_fresh.trans hvar,hvalue,?_⟩
    rw [Rec.perm_fresh,hflag]
    obtain hperm | hperm := hperm
    · rw [hperm,Bool.true_and]
    · rw [hperm r hr,Bool.and_false]
  · intro nm v h
    obtain ⟨r,hr,rfl⟩ := find?_valid ((reads_iff (s := ⟨rs,[]⟩) hoff).mp h)
    have hfind := hstands.find nm
    rw [hr,find?_eq_map_splitFirst] at hfind
    obtain ⟨⟨a,x,b⟩,hsplit,rfl⟩ := map_eq_some_iff.mp hfind
    refine (reads_iff (s := ⟨rs.compact,[]⟩) (off_compact_le hoff)).mpr ?_
    rw [Log.get,Log.find,hsplit]
    simp only [r.good_fresh,if_true,Rec.value_fresh]

end Kept

lemma returns_compact {rs : Log cfg.table} (hoff : rs.off ≤ cfg.size) (after : Bytes) :
    Answers cfg (LogState.bytes ⟨rs,[]⟩ after) .defragenv
      (.status .success,LogState.bytes ⟨rs.compact,[]⟩ after) := by
  refine returns_defragenv (s := ⟨rs,[]⟩) (d := 1) hoff (fun depth => ?_) after
  rw [LogState.defrag,defragWith_nil,restore_saved depth hoff,map_some]

/-- Compacting returns. It loses nothing if the runs of wrong checksums are even and no record is
taken for a different one behind it, and only then where no two records are equal. -/
theorem defrag_keeps_iff (rs : Log cfg.table) (after : Bytes) (hoff : rs.off ≤ cfg.size) :
    ∃ rs' : Log cfg.table,
      Answers cfg (LogState.bytes ⟨rs,[]⟩ after) .defragenv
        (.status .success,LogState.bytes ⟨rs',[]⟩ after) ∧
      (rs.EvenRuns false ∧ Log.copied [] rs.valid = true ∧
        (cfg.permanentVariables = true ∨ ∀ r ∈ rs.valid, r.perm = false) → rs.KeptIn rs' after) ∧
      ((rs.valid.Pairwise fun r x => r.same x = false) → rs.KeptIn rs' after →
        rs.EvenRuns false ∧ Log.copied [] rs.valid = true ∧
          (cfg.permanentVariables = true ∨ ∀ r ∈ rs.valid, r.perm = false)) := by
  rw [← saved_eq_valid_iff]
  refine ⟨rs.compact,returns_compact hoff after,?_,fun hne h => h.of_compact hne⟩
  exact fun ⟨hsaved,hc,hperm⟩ => .compact hoff hsaved hc hperm

/-- Two wrong checksums in a row, and a variable that has two equal records. -/
theorem defrag_keeps_behind_two : ∃ rs rs' : Log ar7Config.table,
    rs = [{ newRec ar7Config (lit "x") (lit "1") false (by decide) with chk := 0 },
      { newRec ar7Config (lit "y") (lit "1") false (by decide) with chk := 0 },
      newRec ar7Config (lit "z") (lit "1") false (by decide),
      newRec ar7Config (lit "z") (lit "1") false (by decide)] ∧
    Answers ar7Config (LogState.bytes ⟨rs,[]⟩ []) .defragenv
      (.status .success,LogState.bytes ⟨rs',[]⟩ []) ∧ rs.KeptIn rs' [] := by
  obtain ⟨rs',hret,hkept,-⟩ := defrag_keeps_iff
    [{ newRec ar7Config (lit "x") (lit "1") false (by decide) with chk := 0 },
      { newRec ar7Config (lit "y") (lit "1") false (by decide) with chk := 0 },
      newRec ar7Config (lit "z") (lit "1") false (by decide),
      newRec ar7Config (lit "z") (lit "1") false (by decide)] [] (by decide)
  exact ⟨_,rs',rfl,hret,hkept ⟨by decide,by decide,by decide⟩⟩

/-- A record `x` with a wrong checksum costs the record `y` behind it. -/
theorem defrag_loses_next : ∃ (rs : Log ar7Config.table) (t : EnvState),
    rs = [{ newRec ar7Config (lit "x") (lit "1") false (by decide) with chk := 0 },
      newRec ar7Config (lit "y") (lit "1") false (by decide)] ∧
    Answers ar7Config (LogState.bytes ⟨rs,[]⟩ []) .defragenv (.status .success,t) ∧
    Reads ar7Config (LogState.bytes ⟨rs,[]⟩ []) (lit "y") (some (lit "1")) ∧
    Reads ar7Config t (lit "y") none := by
  have hoff : Log.off [{ newRec ar7Config (lit "x") (lit "1") false (by decide) with chk := 0 },
      newRec ar7Config (lit "y") (lit "1") false (by decide)] ≤ ar7Config.size := by decide
  refine ⟨_,_,rfl,returns_compact hoff [],?_,?_⟩
  · exact (reads_iff (s := ⟨_,[]⟩) hoff).mpr (by decide)
  · exact (reads_iff (s := ⟨_,[]⟩) (off_compact_le hoff)).mpr (by decide)

end DslG624t.Env
