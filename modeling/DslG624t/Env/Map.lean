import DslG624t.Env.Sound

/-!
# The environment as a map

What the calls of a run say they did adds up to a map from variables to values.
-/

namespace DslG624t.Env

open CString Function SplitFirst

abbrev EnvMap (T : EnvTable) := Var T → Option CStr

variable {cfg : EnvConfig}

def EnvMap.Clear (μ : EnvMap cfg.table) (nm : CStr) : Prop :=
  cfg.table.index nm = 0 → ∀ i h, μ (.pre i h) ≠ some nm

variable {μ : EnvMap cfg.table}

lemma EnvMap.Clear.update {nm : CStr} (h : μ.Clear nm) {v : Var cfg.table} {x : Option CStr}
    (hv : v.isDyn = true ∨ x ≠ some nm) : EnvMap.Clear (update μ v x) nm := by
  intro hi i hi'
  by_cases heq : Var.pre i hi' = v
  · subst heq
    rw [update_self]
    exact hv.resolve_left nofun
  · rw [update_of_ne heq]
    exact h hi i hi'

/-- A call that changes a variable names it by a clear name. -/
def Call.Clear (μ : EnvMap cfg.table) : Call → Prop
  | .setenv (some nm) (some _) => μ.Clear nm
  | .unsetenv nm => μ.Clear nm
  | _ => True

def Call.effect (cfg : EnvConfig) (μ : EnvMap cfg.table) : Call → Answer → EnvMap cfg.table
  | .setenv (some nm) (some val), .status .success =>
    if !cfg.standalone && isReadOnlyVar nm then μ
    else update μ (Var.ofName cfg.table nm) (some val)
  | .unsetenv nm, .status .success => update μ (Var.ofName cfg.table nm) none
  | _, _ => μ

/-- The states reached from a formatted region, with the map that the answers add up to. -/
inductive MapRun (cfg : EnvConfig) : EnvMap cfg.table → EnvState → Prop where
  | format {s t : EnvState} (h : formatEnvBlock cfg s = (.success,t)) :
    MapRun cfg (fun _ => none) t
  | call {μ : EnvMap cfg.table} {s t : EnvState} {c : Call} {ans : Answer} (hs : MapRun cfg μ s)
    (hc : c.Counted cfg) (hclear : c.Clear μ)
    (h : Returns (fun fuel depth => c.run fuel depth cfg s) (ans,t)) :
    MapRun cfg (c.effect cfg μ ans) t

structure MapInv (μ : EnvMap cfg.table) (s : LogState cfg) : Prop where
  off_le : s.log.off ≤ cfg.size
  sound : s.log.Sound
  value : s.log.value = μ
  perm : ∀ r ∈ s.log, r.live = true → r.perm = false

namespace MapInv

variable {s : LogState cfg} {nm : CStr} {s' : LogState cfg}

lemma own (h : MapInv μ s) (hnm : μ.Clear nm) : s.log.Own nm := by
  intro r hr hm
  by_contra hv
  obtain ⟨hi,hdyn,hval⟩ := Rec.value_of_matches hm hv
  have hmu := h.sound.value_of_mem hr (Rec.matches_live hm)
  rw [h.value,hval] at hmu
  cases hvar : r.var with
  | pre i h' => exact hnm hi i h' (hvar ▸ hmu)
  | dyn nm' h' =>
    rw [hvar] at hdyn
    cases hdyn

lemma writable (h : MapInv μ s) (nm : CStr) : s.log.Writable nm :=
  fun r hr hm => h.perm r hr (Rec.matches_live hm)

lemma compact (h : MapInv μ s) (hlog : s'.log = s.log.compact) :
    MapInv μ s' where
  off_le := hlog ▸ off_compact_le h.off_le
  sound := hlog ▸ h.sound.compact
  value := by rw [hlog,h.sound.value_compact,h.value]
  perm x hx _ := by
    rw [hlog,h.sound.compact_eq] at hx
    obtain ⟨r,hr,hl,rfl⟩ := mem_filter_fresh hx
    rw [Rec.perm_fresh,h.perm r hr hl,Bool.and_false]

lemma step (h : MapInv μ s) {c : Call} (hclear : c.Clear μ) {ans : Answer}
    (hoff : s'.log.off ≤ cfg.size) (hstep : LogStep s c ans s') :
    MapInv (c.effect cfg μ ans) s' := by
  cases hstep with
  | getenv nm =>
    have hlog := get_snd_of_good h.sound.good nm
    exact ⟨hoff,hlog.symm ▸ h.sound,hlog.symm ▸ h.value,hlog.symm ▸ h.perm⟩
  | @setenvNull nm val hnull =>
    obtain rfl | rfl := hnull
    · exact h
    · cases nm <;> exact h
  | @setenvReadOnly nm val hk hro =>
    rw [Call.effect,hk,hro]
    exact h
  | @setenv e depth st s' hp hro hset =>
    have hspec := h.sound.setenv h.off_le (h.own hclear) (h.writable _) hset
    refine ⟨hoff,hspec.sound,?_,hspec.perm h.perm hp⟩
    rw [hspec.value,h.value]
    cases st with
    | success => rw [Call.effect,hro]; rfl
    | efailure => rfl
    | erescrunch => rfl
  | unsetenv nm =>
    have hspec := h.sound.unset (h.own hclear)
    refine ⟨hoff,hspec.sound,?_,hspec.perm h.perm⟩
    rw [hspec.value,h.value]
    cases (s.unset nm).1 <;> rfl
  | defragenv hd =>
    obtain ⟨-,hlog⟩ | ⟨-,hlog⟩ := h.sound.defragWith h.off_le hd
    · exact h.compact hlog
    · exact ⟨hoff,hlog ▸ h.sound,hlog ▸ h.value,hlog ▸ h.perm⟩

lemma call (h : MapInv μ s) {c : Call} {ans : Answer} {t : EnvState} {after : Bytes}
    (hc : c.Counted cfg) (hclear : c.Clear μ)
    (hret : Returns (fun fuel depth => c.run fuel depth cfg (s.bytes after)) (ans,t)) :
    ∃ s' : LogState cfg, t = s'.bytes after ∧ MapInv (c.effect cfg μ ans) s' := by
  obtain ⟨fuel,depth,hfuel,hrun⟩ := hret.exists_fuel cfg.size
  obtain ⟨s',rfl,hoff,hstep⟩ := Call.run_bytes hc hfuel h.off_le hrun
  exact ⟨s',rfl,h.step hclear hoff hstep⟩

end MapInv

lemma mapInv_of_mapRun {t : EnvState} (h : MapRun cfg μ t) :
    ∃ (s : LogState cfg) (after : Bytes), t = s.bytes after ∧ MapInv μ s := by
  induction h with
  | @format s t h =>
    obtain ⟨allocs,rfl⟩ := formatEnvBlock_success h
    exact ⟨⟨[],allocs⟩,s.mem.drop cfg.size,rfl,off_nil_le cfg,.nil,rfl,by simp⟩
  | call hs hc hclear h ih =>
    obtain ⟨s,after,rfl,hinv⟩ := ih
    obtain ⟨s',rfl,hinv'⟩ := hinv.call hc hclear h
    exact ⟨s',after,rfl,hinv'⟩

theorem getenv_of_mapRun {μ : EnvMap cfg.table} {s : EnvState} (h : MapRun cfg μ s) (nm : CStr)
    (hnm : μ.Clear nm) :
    Answers cfg s (.getenv nm) (.value ((μ (Var.ofName cfg.table nm)).map Subtype.val),s) := by
  obtain ⟨s,after,rfl,hinv⟩ := mapInv_of_mapRun h
  have hget := returns_getenv hinv.off_le after nm
  rw [hinv.sound.get (hinv.own hnm),hinv.value] at hget
  exact hget

lemma Call.effect_setenv (μ : EnvMap cfg.table) (nm val : CStr)
    (hro : (!cfg.standalone && isReadOnlyVar nm) = false) :
    Call.effect cfg μ (.setenv (some nm) (some val)) (.status .success) =
      update μ (Var.ofName cfg.table nm) (some val) := by
  rw [Call.effect,hro]
  rfl

def promptPsp : Setting ar7Config := ⟨lit "PROMPT" nulFree_prompt,lit "psp",false,by decide⟩

def xOne : Setting ar7Config := ⟨lit "x" nulFree_x,lit "1" nulFree_one,false,by decide⟩

lemma returns_promptPsp : Answers ar7Config (LogState.bytes (⟨[],[]⟩ : LogState ar7Config) [])
    (.setenv (some (lit "PROMPT")) (some (lit "psp")))
    (.status .success,LogState.bytes ⟨[promptPsp.toRec],[]⟩ []) :=
  returns_setenv (s := ⟨[],[]⟩) (e := promptPsp) (off_nil_le ar7Config) rfl (by decide)
    (LogState.setenv_append rfl (by decide)) []

lemma returns_xOne : Answers ar7Config (LogState.bytes ⟨[promptPsp.toRec],[]⟩ [])
    (.setenv (some (lit "x")) (some (lit "1")))
    (.status .success,LogState.bytes ⟨[promptPsp.toRec,xOne.toRec],[]⟩ []) :=
  returns_setenv (s := ⟨[promptPsp.toRec],[]⟩) (e := xOne) (by decide) rfl (by decide)
    (LogState.setenv_append (by decide) (by decide)) []

def promptMap : EnvMap ar7Config.table :=
  update (fun _ => none) (Var.ofName _ (lit "PROMPT" nulFree_prompt)) (some (lit "psp"))

lemma promptMap_clear : promptMap.Clear (lit "x") := by
  have hempty : EnvMap.Clear (fun _ => none : EnvMap ar7Config.table) (lit "x") := fun _ _ _ => nofun
  exact hempty.update (.inr (by decide))

def twoMap : EnvMap ar7Config.table :=
  update promptMap (Var.ofName _ (lit "x" nulFree_x)) (some (lit "1" nulFree_one))

lemma mapRun_two :
    MapRun ar7Config twoMap (LogState.bytes ⟨[promptPsp.toRec,xOne.toRec],[]⟩ []) := by
  have hrun₁ := (MapRun.format formatEnvBlock_ar7).call
    (c := .setenv (some (lit "PROMPT")) (some (lit "psp"))) promptPsp.cells_le
    (fun hi => absurd hi (by decide)) returns_promptPsp
  rw [Call.effect_setenv _ _ _ (by decide)] at hrun₁
  have hrun₂ := hrun₁.call (c := .setenv (some (lit "x")) (some (lit "1"))) xOne.cells_le
    promptMap_clear returns_xOne
  rwa [Call.effect_setenv _ _ _ (by decide)] at hrun₂

theorem getenv_of_mapRun_two : ∃ s t u, formatEnvBlock ar7Config ⟨[],[]⟩ = (.success,s) ∧
    Answers ar7Config s (.setenv (some (lit "PROMPT")) (some (lit "psp"))) (.status .success,t) ∧
    Answers ar7Config t (.setenv (some (lit "x")) (some (lit "1"))) (.status .success,u) ∧
    Answers ar7Config u (.getenv (lit "PROMPT")) (.value (some (ofString "psp")),u) ∧
    Answers ar7Config u (.getenv (lit "x")) (.value (some (ofString "1")),u) := by
  have hget₁ := getenv_of_mapRun mapRun_two (lit "PROMPT") fun hi => absurd hi (by decide)
  have hget₂ := getenv_of_mapRun mapRun_two (lit "x") (promptMap_clear.update (.inl (by decide)))
  rw [twoMap,update_of_ne (by decide),promptMap,update_self] at hget₁
  rw [twoMap,update_self] at hget₂
  exact ⟨_,_,_,formatEnvBlock_ar7,returns_promptPsp,returns_xOne,hget₁,hget₂⟩

theorem getenv_fails_alias : ∃ s t u, formatEnvBlock ar7Config ⟨[],[]⟩ = (.success,s) ∧
    Answers ar7Config s (.setenv (some (lit "PROMPT")) (some (lit "foo"))) (.status .success,t) ∧
    Answers ar7Config t (.getenv (lit "foo")) (.value (some (ofString "foo")),t) ∧
    Answers ar7Config t (.setenv (some (lit "foo")) (some (lit "bar"))) (.status .success,u) ∧
    Answers ar7Config u (.getenv (lit "PROMPT")) (.value none,u) := by
  let e₁ : Setting ar7Config := ⟨lit "PROMPT",lit "foo",false,by decide⟩
  let e₂ : Setting ar7Config := ⟨lit "foo",lit "bar",false,by decide⟩
  have hset₁ := returns_setenv (s := ⟨[],[]⟩) (e := e₁) (off_nil_le ar7Config) rfl (by decide)
    (LogState.setenv_append rfl (by decide)) []
  have hoff₁ : Log.off [e₁.toRec] ≤ ar7Config.size := by decide
  have hget₁ := returns_getenv (s := ⟨[e₁.toRec],[]⟩) hoff₁ [] (lit "foo")
  have hset₂ := returns_setenv (s := ⟨[e₁.toRec],[]⟩) (e := e₂) hoff₁ rfl (by decide)
    (LogState.setenv_replace (a := []) (b := []) (r := e₁.toRec) (by decide) (by decide)
      (by decide) rfl (by decide)) []
  have hoff₂ : Log.off [e₁.toRec.kill,e₂.toRec] ≤ ar7Config.size := by decide
  have hget₂ := returns_getenv (s := ⟨[e₁.toRec.kill,e₂.toRec],[]⟩) hoff₂ [] (lit "PROMPT")
  have hfoo : Log.get ar7Config (lit "foo") [e₁.toRec] = (some (lit "foo"),[e₁.toRec]) := by
    decide
  have hprompt : Log.get ar7Config (lit "PROMPT") [e₁.toRec.kill,e₂.toRec] =
      (none,[e₁.toRec.kill,e₂.toRec]) := by
    decide
  rw [hfoo] at hget₁
  rw [hprompt] at hget₂
  exact ⟨_,_,_,formatEnvBlock_ar7,hset₁,hget₁,hset₂,hget₂⟩

end DslG624t.Env
