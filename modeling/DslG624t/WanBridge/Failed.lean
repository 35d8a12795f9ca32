import DslG624t.WanBridge.Invariant

/-!
# Commands of the WAN bridge that fail

What `wb_add_bridge` and `wb_add_interface` acquire besides the heap of the module, and whether
an error exit gives it back.
-/

namespace DslG624t.WanBridge

open CString Function List Option

/-- A reference to a network device is taken or given back, a block is allocated or freed. -/
inductive ResOp
  | devHold
  | devPut
  | malloc
  | free
  deriving DecidableEq

def createBridgeOps (k : Kernel) : List ResOp :=
  if !k.bridgeMalloc then []
  else if !k.hasDoIoctl then [.malloc,.free]
  else if !k.doIoctl then [.malloc,.free]
  else [.malloc]

def addBridgeOps (k : Kernel) (argv : List Word) (s : Wb) : List ResOp :=
  match argv with
  | [_,name,_,mode] =>
    match findBridge s name s.wanBridgeList with
    | some none =>
      if !k.devGetByName then []
      else .devHold :: (if (parseMode mode).isNone then [] else createBridgeOps k)
    | _ => []
  | _ => []

def deviceInitializeOps (k : Kernel) : List ResOp :=
  if !k.netMalloc then [] else if !k.privMalloc then [.malloc] else [.malloc,.malloc]

def createInterfaceOps (k : Kernel) (br : Bridge) (key : ℤ) : List ResOp :=
  deviceInitializeOps k ++
    if !k.netMalloc || !k.privMalloc || k.register.isNone || !k.deviceMalloc then []
    else .malloc :: if br.mode = .vlan ∧ (br.bucket key.toNat).isSome then [.free,.free,.free]
      else []

/-- The validations of `wb_add_interface`: the bridge, the name and the key of the new device. -/
structure ValidInterface (k : Kernel) (argv : List Word) (s : Wb) (b : ℕ) (br : Bridge)
    (ifname : Word) (key prio : ℤ) : Prop where
  argv : ∃ cmd name args, argv = cmd :: name :: ifname :: args ∧ args.length ≤ 2 ∧
    findBridge s name s.wanBridgeList = some (some b) ∧ keyAndPriority br.mode args = .ok (key,prio)
  devGetByName : k.devGetByName = false
  bridge : s.bridge b = some br

def addInterfaceOps (k : Kernel) (argv : List Word) (s : Wb) : List ResOp :=
  match argv with
  | _ :: name :: _ :: args =>
    if 2 < args.length then []
    else match findBridge s name s.wanBridgeList with
      | some (some b) =>
        if k.devGetByName then [.devHold,.devPut]
        else match s.bridge b with
          | none => []
          | some br =>
            match keyAndPriority br.mode args with
            | .error _ => []
            | .ok (key,_) => createInterfaceOps k br key
      | _ => []
  | _ => []

/-- The bridges, their devices and buckets, the network devices, the references and the memory are
as before. -/
structure Unchanged (s s' : Wb) (ops : List ResOp) : Prop where
  list : s'.wanBridgeList = s.wanBridgeList
  bridge : ∀ b, (s'.bridge b).map (fun br => (br.deviceList,br.bucket)) =
    (s.bridge b).map fun br => (br.deviceList,br.bucket)
  net : s'.net = s.net
  refs : ops.count .devHold = ops.count .devPut
  memory : ops.count .malloc = ops.count .free

variable {ops : List ResOp} {name : Word}

lemma unchanged_self {s : Wb} :
    Unchanged s s ops ↔ ops.count .devHold = ops.count .devPut ∧
      ops.count .malloc = ops.count .free :=
  ⟨fun h => ⟨h.refs,h.memory⟩,fun h => ⟨rfl,fun _ => rfl,rfl,h.1,h.2⟩⟩

variable {k : Kernel} {argv : List Word} {s s' : Wb} {e : ℤ}

lemma unchanged_nil : Unchanged s s [] := unchanged_self.mpr ⟨rfl,rfl⟩

/-- The reference to the source device is taken. -/
def HoldsDevice (k : Kernel) (argv : List Word) (s : Wb) : Prop :=
  ∃ cmd name ifname mode, argv = [cmd,name,ifname,mode] ∧
    findBridge s name s.wanBridgeList = some none ∧ k.devGetByName = true

lemma addBridgeOps_of_holds (h : HoldsDevice k argv s) :
    (addBridgeOps k argv s).count .devHold ≠ (addBridgeOps k argv s).count .devPut := by
  obtain ⟨cmd,name,ifname,mode,rfl,hfind,hdev⟩ := h
  simp only [addBridgeOps,hfind,hdev,createBridgeOps,Bool.not_true,Bool.false_eq_true,if_false]
  split_ifs <;> decide

lemma addBridgeOps_of_not_holds (h : ¬ HoldsDevice k argv s) : addBridgeOps k argv s = [] := by
  unfold addBridgeOps
  split
  · split
    · next hfind =>
      rw [if_pos]
      by_contra hdev
      exact h ⟨_,_,_,_,rfl,hfind,by simpa using hdev⟩
    · rfl
  · rfl

lemma createBridge_spec {mode : Mode} (h : createBridge k name mode s = some (e,s')) :
    (createBridgeOps k = [.malloc] ↔ e = 0) ∧ (e ≠ 0 → s' = s) := by
  unfold createBridge at h
  unfold createBridgeOps
  split_ifs at h ⊢ <;> cases h <;> simp [einval,enomem]

/-- The log follows the command: everything is taken and kept exactly when it succeeds. -/
lemma addBridge_spec (h : wbAddBridge k argv s = some (e,s')) :
    (addBridgeOps k argv s = [.devHold,.malloc] ↔ e = 0) ∧ (e ≠ 0 → s' = s) := by
  unfold wbAddBridge at h
  unfold addBridgeOps
  split at h
  · obtain ⟨_ | _,hfind,h⟩ := bind_eq_some_iff.mp h
    · dsimp only at h
      simp only [hfind]
      cases hdev : k.devGetByName with
      | false =>
        rw [hdev] at h
        cases h
        simp [einval]
      | true =>
        rw [hdev] at h
        cases hmode : parseMode _ with
        | none =>
          rw [hmode] at h
          cases h
          simp [einval]
        | some mode =>
          rw [hmode] at h
          simpa using createBridge_spec h
    · cases h
      simp [hfind,einval]
  · cases h
    simp [einval]

lemma addBridge_unchanged_iff (h : wbAddBridge k argv s = some (e,s')) (he : e ≠ 0) :
    Unchanged s s' (addBridgeOps k argv s) ↔ ¬ HoldsDevice k argv s := by
  rw [(addBridge_spec h).2 he,unchanged_self]
  constructor
  · exact fun hops hholds => addBridgeOps_of_holds hholds hops.1
  · intro hnot
    rw [addBridgeOps_of_not_holds hnot]
    exact ⟨rfl,rfl⟩

def Wb.Fresh (s : Wb) : Prop :=
  ∀ x, s.next ≤ x → s.bridge x = none ∧ s.device x = none ∧ s.net x = none

/-- The network device is created, and then an allocation or the registration fails. -/
def StopsHalfway (k : Kernel) (argv : List Word) (s : Wb) : Prop :=
  (∃ b br ifname key prio, ValidInterface k argv s b br ifname key prio) ∧ k.netMalloc = true ∧
    ¬ (k.privMalloc = true ∧ k.register.isSome = true ∧ k.deviceMalloc = true)

variable {b : ℕ} {br : Bridge} {ifname : Word} {key prio : ℤ}

lemma addInterface_of_valid (h : ValidInterface k argv s b br ifname key prio) :
    wbAddInterface k argv s = createInterface k b ifname key prio s ∧
      addInterfaceOps k argv s = createInterfaceOps k br key := by
  obtain ⟨⟨cmd,name,args,rfl,hlen,hfind,hkey⟩,hdev,hbr⟩ := h
  constructor
  · simp [wbAddInterface,not_lt.mpr hlen,hfind,hdev,hbr,hkey]
  · simp [addInterfaceOps,not_lt.mpr hlen,hfind,hdev,hbr,hkey]

lemma addInterface_of_not_valid
    (hnot : ¬ ∃ b br ifname key prio, ValidInterface k argv s b br ifname key prio)
    (h : wbAddInterface k argv s = some (e,s')) :
    Unchanged s s' (addInterfaceOps k argv s) := by
  rcases argv with _ | ⟨cmd,_ | ⟨name,_ | ⟨ifname,args⟩⟩⟩
  case cons.cons.cons =>
    rw [wbAddInterface] at h
    rw [addInterfaceOps]
    split at h
    · next hlen =>
      cases h
      rw [if_pos hlen]
      exact unchanged_nil
    next hlen =>
    rw [if_neg hlen]
    obtain ⟨_ | b,hr,h⟩ := bind_eq_some_iff.mp h
    · cases h
      rw [hr]
      exact unchanged_nil
    rw [hr]
    dsimp only at h ⊢
    split at h
    · next hdev =>
      cases h
      rw [if_pos hdev]
      exact unchanged_self.mpr ⟨rfl,rfl⟩
    next hdev =>
    obtain ⟨br,hbr,h⟩ := bind_eq_some_iff.mp h
    rw [if_neg hdev,hbr]
    dsimp only
    cases hkey : keyAndPriority br.mode args with
    | error _ =>
      rw [hkey] at h
      cases h
      exact unchanged_nil
    | ok x =>
      exact absurd ⟨b,br,ifname,x.1,x.2,⟨⟨cmd,name,args,rfl,not_lt.mp hlen,hr,
        hkey⟩,by simpa using hdev,hbr⟩⟩ hnot
  all_goals
    cases h
    exact unchanged_nil

lemma deviceInitialize_cases {r : Option (ℕ × Wb)} (h : wbDeviceInitialize k name s = some r) :
    r = none ∧ ¬ (k.privMalloc = true ∧ k.register.isSome = true) ∨
      r = none ∧ k.netMalloc = false ∨
      ∃ registered, r = some (s.next,s.withNet registered) ∧ k.netMalloc = true ∧
        k.privMalloc = true ∧ k.register = some registered := by
  unfold wbDeviceInitialize at h
  split_ifs at h with hnet hpriv
  · cases h
    exact .inr (.inl ⟨rfl,by simpa using hnet⟩)
  · cases h
    exact .inl ⟨rfl,fun hk => by simp [hk.1] at hpriv⟩
  split at h
  · next hreg =>
    cases h
    exact .inl ⟨rfl,fun hk => by simp [hreg] at hk⟩
  · next registered hreg =>
    cases h
    exact .inr (.inr ⟨registered,rfl,by simpa using hnet,by simpa using hpriv,hreg⟩)

lemma undoAttach_unchanged (hs : s.Fresh) (hbr : s.bridge b = some br)
    (hlinked : linked s.device br.deviceList = true)
    (h : undoAttach b (s.next+1) s.next (s.withDevice name b br key prio) = some s')
    (hrefs : ops.count .devHold = ops.count .devPut) (hmemory : ops.count .malloc = ops.count .free)
    : Unchanged s s' ops := by
  obtain ⟨-,hdnone,-⟩ := hs (s.next+1) (Nat.le_succ _)
  obtain ⟨-,-,hnnone⟩ := hs s.next le_rfl
  have hnew : s.next+1 ∉ br.deviceList := by
    intro hmem
    have hsome := all_eq_true.mp hlinked _ hmem
    rw [hdnone] at hsome
    cases hsome
  rw [undoAttach_eq key prio name hdnone hnnone hlinked] at h
  cases h
  refine ⟨rfl,fun x => ?_,rfl,hrefs,hmemory⟩
  by_cases hx : x = b
  · subst hx
    have herase : (br.deviceList ++ [s.next+1]).erase (s.next+1) = br.deviceList := by
      rw [erase_append_right _ hnew,erase_cons_head,append_nil]
    simp only [update_self,hbr,map_some,Bridge.without,herase]
  · simp only [update_of_ne hx]

lemma deviceInitializeOps_of_net (hnet : k.netMalloc = true) :
    (deviceInitializeOps k).count .malloc ≠ (deviceInitializeOps k).count .free := by
  simp only [deviceInitializeOps,hnet,Bool.not_true,Bool.false_eq_true,if_false]
  split_ifs <;> decide

lemma createInterfaceOps_of_failed (h : ¬ (k.privMalloc = true ∧ k.register.isSome = true)) :
    createInterfaceOps k br key = deviceInitializeOps k := by
  rw [createInterfaceOps,if_pos,append_nil]
  by_cases hpriv : k.privMalloc = true
  · simp [not_isSome_iff_eq_none.mp fun hreg => h ⟨hpriv,hreg⟩]
  · simp [hpriv]

lemma attachDevice_cases (hbr : s.bridge b = some br)
    (h : attachDevice b s.next key prio (s.withNet name) = some s') :
    linked s.device br.deviceList = true ∧ s' = s.withDevice name b br key prio := by
  obtain ⟨br',hbr',h⟩ := bind_eq_some_iff.mp h
  cases hbr.symm.trans hbr'
  split_ifs at h with hlinked
  cases h
  exact ⟨hlinked,rfl⟩

lemma isSome_bucket_of_wbAdd {d : ℕ} {r : Option Bridge} (h : wbAdd br d key = some r) :
    (br.bucket key.toNat).isSome = r.isNone := by
  unfold wbAdd at h
  split_ifs at h
  cases hkey : br.bucket key.toNat <;> simp only [hkey] at h <;> cases h <;> rfl

/-- The log follows the command, and what it says decides about an error. -/
lemma createInterface_spec (hs : s.Fresh) (hbr : s.bridge b = some br)
    (h : createInterface k b ifname key prio s = some (e,s')) :
    (createInterfaceOps k br key = [.malloc,.malloc,.malloc] ↔ e = 0) ∧
    (e ≠ 0 → (Unchanged s s' (createInterfaceOps k br key) ↔ ¬ (k.netMalloc = true ∧
      ¬ (k.privMalloc = true ∧ k.register.isSome = true ∧ k.deviceMalloc = true)))) := by
  obtain ⟨r,hr,h⟩ := bind_eq_some_iff.mp h
  rcases deviceInitialize_cases hr with ⟨rfl,hk⟩ | ⟨rfl,hk⟩ | ⟨reg,rfl,hnet,hpriv,hreg⟩
  · cases h
    rw [unchanged_self,createInterfaceOps_of_failed hk]
    refine ⟨iff_of_false ?_ (by decide),fun _ => ?_⟩
    · unfold deviceInitializeOps
      split_ifs <;> decide
    cases hnet : k.netMalloc
    · simp [deviceInitializeOps,hnet]
    · refine iff_of_false (fun hops => deviceInitializeOps_of_net hnet hops.2) ?_
      exact fun hnot => hnot ⟨rfl,fun hall => hk ⟨hall.1,hall.2.1⟩⟩
  · cases h
    simp [unchanged_self,createInterfaceOps,deviceInitializeOps,hk,enomem]
  dsimp only at h
  split_ifs at h with hdev
  · cases h
    refine ⟨by simp_all [createInterfaceOps,deviceInitializeOps,enomem],fun _ => ?_⟩
    refine iff_of_false (fun hun => ?_) (by simpa [hnet,hpriv,hreg] using hdev)
    have hnone := congrFun hun.net s.next
    rw [(hs s.next le_rfl).2.2] at hnone
    cases (update_self ..).symm.trans hnone
  obtain ⟨s2,hs2,h⟩ := bind_eq_some_iff.mp h
  obtain ⟨hlinked,rfl⟩ := attachDevice_cases hbr hs2
  obtain ⟨br2,hbr2,h⟩ := bind_eq_some_iff.mp h
  cases (update_self ..).symm.trans hbr2
  cases hm : br.mode with
  | nonVlan =>
    rw [hm] at h
    cases h
    simp_all [createInterfaceOps,deviceInitializeOps]
  | vlan =>
    simp only [hm] at h
    obtain ⟨_ | br',hadd,h⟩ := bind_eq_some_iff.mp h
    all_goals have hkey := isSome_bucket_of_wbAdd hadd
    · obtain ⟨s3,hundo,h⟩ := bind_eq_some_iff.mp h
      cases h
      refine ⟨by simp_all [createInterfaceOps,deviceInitializeOps,einval],fun _ => ?_⟩
      refine iff_of_true ?_ (by simpa [hnet,hpriv,hreg] using hdev)
      refine undoAttach_unchanged hs hbr hlinked hundo ?_ ?_ <;>
        simp_all [createInterfaceOps,deviceInitializeOps]
    · cases h
      simp_all [createInterfaceOps,deviceInitializeOps]

lemma addInterface_unchanged_iff (hs : s.Fresh) (h : wbAddInterface k argv s = some (e,s'))
    (he : e ≠ 0) : Unchanged s s' (addInterfaceOps k argv s) ↔ ¬ StopsHalfway k argv s := by
  by_cases hvalid : ∃ b br ifname key prio, ValidInterface k argv s b br ifname key prio
  · obtain ⟨b,br,ifname,key,prio,hv⟩ := hvalid
    obtain ⟨hcreate,hops⟩ := addInterface_of_valid hv
    rw [hcreate] at h
    rw [hops,(createInterface_spec hs hv.bridge h).2 he]
    exact not_congr (and_iff_right ⟨b,br,ifname,key,prio,hv⟩).symm
  · exact iff_of_true (addInterface_of_not_valid hvalid h) fun hstop => hvalid hstop.1

/-- A failing command leaves everything as it was exactly when it fails before it holds the source
device, respectively does not stop between the network device and the device of the bridge. -/
theorem failed_unchanged_iff (hs : s.Fresh) (he : e ≠ 0) :
    (wbAddBridge k argv s = some (e,s') →
      (Unchanged s s' (addBridgeOps k argv s) ↔ ¬ HoldsDevice k argv s)) ∧
    (wbAddInterface k argv s = some (e,s') →
      (Unchanged s s' (addInterfaceOps k argv s) ↔ ¬ StopsHalfway k argv s)) :=
  ⟨fun h => addBridge_unchanged_iff h he,fun h => addInterface_unchanged_iff hs h he⟩

def badMode : List Word := [ofString "addbr",ofString "wb",ofString "eth0",ofString "2"]

/-- The same key a second time: all three blocks are taken and given back. -/
theorem failed_unchanged_duplicate_key : ∃ s s',
    Wb.init.run [addSampleBridge,addSampleInterface] = some s ∧
    wbAddInterface (readyKernel (ofString "w5")) sampleArgv s = some (einval,s') ∧
    (addInterfaceOps (readyKernel (ofString "w5")) sampleArgv s).count .malloc = 3 ∧
    Unchanged s s' (addInterfaceOps (readyKernel (ofString "w5")) sampleArgv s) := by
  have hsafe : RunSafe Wb.init [addSampleBridge,addSampleInterface] :=
    ⟨safe_addSampleBridge _,fun _ _ _ => ⟨safe_addSampleInterface _,fun _ _ _ => trivial⟩⟩
  obtain ⟨s,hrun,hs⟩ := Wb.Inv.init.run hsafe
  cases hrun
  refine ⟨_,_,rfl,rfl,rfl,((failed_unchanged_iff (e := einval) hs.fresh (by decide)).2 rfl).mpr ?_⟩
  rintro ⟨-,-,hnot⟩
  exact hnot ⟨rfl,rfl,rfl⟩

/-- The mode is refused, and the reference to `eth0` stays. -/
theorem bad_mode_keeps_reference :
    wbAddBridge { readyKernel [] with devGetByName := true } badMode Wb.init =
      some (einval,Wb.init) ∧
      ¬ Unchanged Wb.init Wb.init
        (addBridgeOps { readyKernel [] with devGetByName := true } badMode Wb.init) := by
  refine ⟨rfl,fun h => ?_⟩
  exact absurd h.refs (by decide)

end DslG624t.WanBridge
