import DslG624t.Env.Calls

/-!
# The chain of records

The records of a region form a chain: each holds as many cells as its strings need, none goes past
the end of the region, and what follows the last one is erased.
-/

namespace DslG624t.Env

open CString Flash List SplitFirst

def recordSize (x : Bytes) : ℕ :=
  let value := if isEnvDynamic (ctrl x) then (data x).drop (strlen (data x)+1) else data x
  5+(if isEnvDynamic (ctrl x) then strlen (data x)+1 else 0)+(strlen value+1)

/-- From the address `p` on, the region is a chain of records up to its erased rest. -/
inductive EnvChain (cfg : EnvConfig) (m : Bytes) : ℕ → Prop where
  | erased {p : ℕ} (hp : p ≤ cfg.size)
    (herased : ∀ o, p ≤ o → o < cfg.size → m[o]? = some Flash.erased) : EnvChain cfg m p
  | record {p : ℕ} (hnum : varNum (m.drop p) ≠ 0xFF) (hpos : 1 ≤ (numCells (m.drop p)).toNat)
    (hcells : (numCells (m.drop p)).toNat = (recordSize (m.drop p)+15) / 16)
    (hend : envGetNextBlock m p ≤ cfg.size) (hnext : EnvChain cfg m (envGetNextBlock m p)) :
    EnvChain cfg m p

/-- A walk over the records with `EnvGetNextBlock` from `p` on comes to an end. -/
def WalkEnds (cfg : EnvConfig) (m : Bytes) (p : ℕ) : Prop :=
  ∃ k, ¬ ((envGetNextBlock m)^[k] p < cfg.size ∧ varNum (m.drop ((envGetNextBlock m)^[k] p)) ≠ 0xFF)

variable {cfg : EnvConfig}

lemma varNum_drop {m : Bytes} {p : ℕ} {b : UInt8} (h : m[p]? = some b) : varNum (m.drop p) = b := by
  rw [varNum,getD_eq_getElem?_getD,getElem?_drop,add_zero,h,Option.getD_some]

lemma EnvChain.walkEnds {m : Bytes} {p : ℕ} (h : EnvChain cfg m p) : WalkEnds cfg m p := by
  induction h with
  | erased hp herased =>
    refine ⟨0,?_⟩
    rintro ⟨hlt,hne⟩
    exact hne (varNum_drop (herased _ (le_refl _) hlt))
  | record hnum hpos hcells hend hnext ih =>
    obtain ⟨k,hk⟩ := ih
    exact ⟨k+1,by rwa [Function.iterate_succ_apply]⟩

lemma recordSize_encode (r : Rec cfg.table) (rest : Bytes) :
    recordSize (r.encode ++ rest) = 5+r.text.length := by
  have hdyn : isEnvDynamic r.ctrlOf = r.var.isDyn := isEnvDynamic_ctrlByte _ _ _
  have hkey : strlen (data (r.encode ++ rest)) = r.key.1.length := by
    rw [strlen,cstr_data_encode]
  rw [recordSize,ctrl_encode,hdyn,Rec.text,recText]
  cases hv : r.var with
  | pre i h =>
    have hval : r.key = r.value := by simp only [Rec.key,hv]
    simp [Var.isDyn,Var.stored,hkey,hval]
  | dyn nm h =>
    have hval := congrArg length (cstr_value_encode r rest hv)
    have hnm : r.key = nm := by simp only [Rec.key,hv]
    rw [hkey] at hval
    simp only [Var.isDyn,Var.stored,if_true,hkey,hnm,length_append,length_singleton] at hval ⊢
    rw [strlen,hval]
    omega

lemma cellsFor_eq (len : ℕ) : cellsFor len = (5+len+15) / 16 := by
  have h := cellsFor_spec len
  simp only [envCellSize] at h
  omega

lemma envChain_image (a b : Log cfg.table) (after : Bytes) (h : Log.off (a ++ b) ≤ cfg.size) :
    EnvChain cfg (image cfg (a ++ b) after) a.off := by
  induction b generalizing a with
  | nil =>
    rw [append_nil] at h ⊢
    refine .erased h fun o hle hlt => ?_
    obtain ⟨pre,-,hlen,hpre⟩ := region_eq a []
    rw [image,hpre,getElem?_append_right (by omega),getElem?_append_left,hlen,
      getElem?_replicate,if_pos (by omega)]
    rw [length_replicate]
    omega
  | cons r b ih =>
    have hnext := ih (a ++ [r])
    simp only [append_assoc,singleton_append] at hnext
    have hblock : envGetNextBlock (image cfg (a ++ r :: b) after) a.off = Log.off (a ++ [r]) :=
      envGetNextBlock_region a r b _
    have hle : Log.off (a ++ [r]) ≤ cfg.size := by
      simp only [Log.off,Log.cells_append,Log.cells_cons,Log.cells_nil,envCellSize] at h ⊢
      omega
    have hcells : (numCells ((image cfg (a ++ r :: b) after).drop a.off)).toNat = r.cells := by
      rw [image,region_drop_rec,toNat_numCells_encode]
    refine .record (varNum_region_ne a r b _) (hcells ▸ r.cells_pos) ?_ (hblock ▸ hle)
      (hblock ▸ hnext h)
    rw [hcells,image,region_drop_rec,recordSize_encode,Rec.cells,cellsFor_eq]

section Formatted

variable {nm val : CStr} {after : Bytes} {allocs : List Bool}

lemma setenv_formatted (hro : (!cfg.standalone && isReadOnlyVar nm) = false)
    (hfit : Log.fits cfg nm val [] = true) :
    Answers cfg (LogState.bytes (⟨[],allocs⟩ : LogState cfg) after) (.setenv (some nm) (some val))
      (.status .success,⟨programAll (image cfg [] after)
        (writesAt envCellSize (newHeader cfg nm val false ++ newText cfg nm val)),allocs⟩) := by
  refine ⟨cfg.size+1,fun fuel hfuel depth hdepth => ?_⟩
  obtain ⟨depth,rfl⟩ : ∃ d, depth = d+1 := ⟨depth-1,by omega⟩
  have hplan := setenvPlan_region nm val false (show cfg.size ≤ fuel by omega)
    (logEnd_image (off_nil_le cfg) after)
  have hlog : Log.plan cfg nm val [] = ([],.append none) := by
    simp [Log.plan,Log.find,splitFirst,hfit]
  have hmem : (LogState.bytes (⟨[],allocs⟩ : LogState cfg) after).mem = image cfg [] after := rfl
  rw [hlog] at hplan
  simp only [Call.run_setenv hro,sysSetenvPerm,hmem]
  rw [image,hplan]
  simp only [LogPlan.toBytes,Option.map_none,Option.toList_none,append_nil,Log.off_nil]
  rfl

theorem envChain_of_reach {s : EnvState} (h : EnvReach cfg s) :
    EnvChain cfg s.mem envCellSize ∧ WalkEnds cfg s.mem envCellSize := by
  obtain ⟨s,after,rfl,hoff⟩ := h.bytes
  have hchain := envChain_image [] s.log after hoff
  rw [Log.off_nil] at hchain
  exact ⟨hchain,hchain.walkEnds⟩

theorem envChain_of_reach_two : ∃ s t u, formatEnvBlock ar7Config ⟨[],[]⟩ = (.success,s) ∧
    Answers ar7Config s (.setenv (some (lit "PROMPT")) (some (lit "psp"))) (.status .success,t) ∧
    Answers ar7Config t (.setenv (some (lit "x")) (some (lit "1"))) (.status .success,u) ∧
    EnvChain ar7Config u.mem envCellSize ∧ WalkEnds ar7Config u.mem envCellSize := by
  let e₁ : Setting ar7Config := ⟨lit "PROMPT",lit "psp",false,by decide⟩
  let e₂ : Setting ar7Config := ⟨lit "x",lit "1",false,by decide⟩
  have hset₁ := returns_setenv (s := ⟨[],[]⟩) (e := e₁) (off_nil_le ar7Config) rfl (by decide)
    (LogState.setenv_append rfl (by decide)) []
  have hset₂ := returns_setenv (s := ⟨[e₁.toRec],[]⟩) (e := e₂) (by decide) rfl (by decide)
    (LogState.setenv_append (by decide) (by decide)) []
  have hreach := EnvReach.call (c := .setenv (some e₁.name) (some e₁.value))
    (.format formatEnvBlock_ar7) e₁.cells_le hset₁
  exact ⟨_,_,_,formatEnvBlock_ar7,hset₁,hset₂,envChain_of_reach
    (hreach.call (c := .setenv (some e₂.name) (some e₂.value)) e₂.cells_le hset₂)⟩

lemma drop_writesAt_formatted {bs : Bytes} (h : envCellSize+bs.length ≤ cfg.size) :
    (programAll (image cfg [] after) (writesAt envCellSize bs)).drop envCellSize =
      bs ++ (List.replicate (cfg.size-envCellSize-bs.length) erased ++ after) := by
  obtain ⟨pre,-,hlen,hpre⟩ := region_eq ([] : Log cfg.table) []
  rw [Log.off_nil] at hlen
  have hfree : replicate (cfg.size-envCellSize) erased =
      replicate bs.length erased ++
        replicate (cfg.size-envCellSize-bs.length) erased := by
    rw [replicate_append_replicate]
    congr 1
    omega
  rw [image,hpre,Log.off_nil,hfree,append_assoc,← hlen,programAll_writesAt_erased,drop_left]

lemma not_envChain_of_newCells {m : Bytes} (hcells : newCells cfg nm val = 0)
    (hlt : envCellSize < cfg.size) {rest : Bytes}
    (h : m.drop envCellSize = newHeader cfg nm val false ++ rest) :
    ¬ EnvChain cfg m envCellSize ∧ ¬ WalkEnds cfg m envCellSize := by
  have hnum : varNum (m.drop envCellSize) ≠ 0xFF := by
    rw [h]
    exact newVarNum_ne cfg nm
  have hzero : numCells (m.drop envCellSize) = 0 := by
    rw [h]
    exact hcells
  constructor
  · intro hchain
    cases hchain with
    | erased hp herased => exact hnum (varNum_drop (herased _ (le_refl _) hlt))
    | record hnum hpos _ _ _ => simp [hzero] at hpos
  rintro ⟨k,hk⟩
  have hstay : envGetNextBlock m envCellSize = envCellSize := by
    rw [envGetNextBlock,hzero]
    rfl
  rw [Function.iterate_fixed hstay] at hk
  exact hk ⟨hlt,hnum⟩

end Formatted

theorem envChain_fails_256 : ∃ s t, formatEnvBlock ar7Config ⟨[],[]⟩ = (.success,s) ∧
    Answers ar7Config s (.setenv (some (lit "x")) (some (letters 4073))) (.status .success,t) ∧
    ¬ EnvChain ar7Config t.mem envCellSize ∧ ¬ WalkEnds ar7Config t.mem envCellSize := by
  have hcells : newCells ar7Config (lit "x") (letters 4073) = 0 := by decide +kernel
  have hset := @setenv_formatted ar7Config (lit "x") (letters 4073) [] [] (by decide) (by decide +kernel)
  refine ⟨_,_,formatEnvBlock_ar7,hset,?_⟩
  have hroom : envCellSize+(newHeader ar7Config (lit "x") (letters 4073) false ++
      newText ar7Config (lit "x") (letters 4073)).length ≤ ar7Config.size := by decide +kernel
  have hdrop := @drop_writesAt_formatted ar7Config [] _ hroom
  rw [append_assoc] at hdrop
  dsimp only
  exact not_envChain_of_newCells hcells (by decide) hdrop

end DslG624t.Env
