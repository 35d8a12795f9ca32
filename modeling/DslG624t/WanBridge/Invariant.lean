import DslG624t.WanBridge.Commands

/-!
# Buckets, lists and state flags of the WAN bridge agree

The buckets of a VLAN bridge, its device list and its state flag are three copies of one relation
between keys and devices.
-/

namespace DslG624t.WanBridge

open CString Function List Option

structure Bridge.Consistent (s : Wb) (br : Bridge) : Prop where
  bucket : br.mode = .vlan → ∀ k d, br.bucket k = some d ↔
    d ∈ br.deviceList ∧ ∃ dev, s.device d = some dev ∧ dev.vlanKey = k
  key_lt : br.mode = .vlan → ∀ d ∈ br.deviceList, ∃ dev, s.device d = some dev ∧
    0 ≤ dev.vlanKey ∧ dev.vlanKey < maxVlanSupported
  ready : br.ready = true ↔ br.deviceList ≠ []

def Wb.Consistent (s : Wb) : Prop :=
  ∀ b ∈ s.wanBridgeList, ∃ br, s.bridge b = some br ∧ br.Consistent s

/-- A consistent bridge whose devices are allocated and point back to it. -/
structure Owned (s : Wb) (b : ℕ) (br : Bridge) : Prop where
  consistent : br.Consistent s
  nodup : br.deviceList.Nodup
  device : ∀ d ∈ br.deviceList, ∃ dev, s.device d = some dev ∧ dev.wanBridge = b

structure Wb.Inv (s : Wb) : Prop where
  nodup : s.wanBridgeList.Nodup
  owned : ∀ b ∈ s.wanBridgeList, ∃ br, s.bridge b = some br ∧ Owned s b br
  net : ∀ d dev, s.device d = some dev → ∃ name, s.net dev.netDevice = some name
  net_inj : ∀ d d' dev dev', s.device d = some dev → s.device d' = some dev' →
    dev.netDevice = dev'.netDevice → d = d'
  fresh : ∀ x, s.next ≤ x → s.bridge x = none ∧ s.device x = none ∧ s.net x = none

variable {s s' : Wb} {b d x : ℕ} {br : Bridge} {dev : Device} {l : List ℕ}

lemma Wb.Inv.init : Wb.init.Inv := by
  refine ⟨nodup_nil,?_,?_,?_,fun _ _ => ⟨rfl,rfl,rfl⟩⟩
  · intro b hb
    simp [Wb.init] at hb
  · intro d dev h
    simp [Wb.init] at h
  · intro d d' dev dev' h
    simp [Wb.init] at h

lemma Wb.Inv.consistent (hs : s.Inv) : s.Consistent := by
  intro b hb
  obtain ⟨br,hbr,hown⟩ := hs.owned b hb
  exact ⟨br,hbr,hown.consistent⟩

lemma Owned.frame (h : Owned s b br) (hdev : ∀ d ∈ br.deviceList, s'.device d = s.device d) :
    Owned s' b br := by
  refine ⟨⟨?_,?_,h.consistent.ready⟩,h.nodup,?_⟩
  · intro hm k d
    rw [h.consistent.bucket hm k d]
    refine and_congr_right fun hd => ?_
    rw [hdev d hd]
  · intro hm d hd
    rw [hdev d hd]
    exact h.consistent.key_lt hm d hd
  · intro d hd
    rw [hdev d hd]
    exact h.device d hd

lemma Wb.Inv.lt_next (hs : s.Inv) (hd : s.device d = some dev) : d < s.next := by
  by_contra hle
  rw [(hs.fresh d (by omega)).2.1] at hd
  cases hd

lemma Wb.Inv.bridge_lt_next (hs : s.Inv) (hb : s.bridge b = some br) : b < s.next := by
  by_contra hle
  rw [(hs.fresh b (by omega)).1] at hb
  cases hb

lemma Wb.Inv.net_lt_next (hs : s.Inv) (hd : s.device d = some dev) : dev.netDevice < s.next := by
  by_contra hle
  obtain ⟨name,hname⟩ := hs.net d dev hd
  rw [(hs.fresh _ (by omega)).2.2] at hname
  cases hname

lemma linked_of_forall {α : Type} {heap : ℕ → Option α} (h : ∀ x ∈ l, ∃ a, heap x = some a) :
    linked heap l = true := by
  rw [linked,List.all_eq_true]
  intro x hx
  obtain ⟨a,ha⟩ := h x hx
  rw [ha,isSome_some]

lemma Wb.Inv.linked_bridges (hs : s.Inv) : linked s.bridge s.wanBridgeList = true := by
  refine linked_of_forall fun b hb => ?_
  obtain ⟨br,hbr,-⟩ := hs.owned b hb
  exact ⟨br,hbr⟩

lemma Owned.linked (h : Owned s b br) : linked s.device br.deviceList = true := by
  refine linked_of_forall fun d hd => ?_
  obtain ⟨dev,hdev,-⟩ := h.device d hd
  exact ⟨dev,hdev⟩

/-- The two searches: `f` stops at a member with `p` or goes on behind it. -/
lemma find_spec {f : List ℕ → Option (Option ℕ)} {p : ℕ → Prop} (hnil : f [] = some none)
    (hcons : ∀ x ∈ l, ∀ xs, f (x :: xs) = some (some x) ∧ p x ∨ f (x :: xs) = f xs) :
    ∃ r, f l = some r ∧ ∀ x ∈ r, x ∈ l ∧ p x := by
  induction l with
  | nil => exact ⟨none,hnil,by simp⟩
  | cons x xs ih =>
    rcases hcons x (by simp) xs with ⟨hx,hp⟩ | hx
    · refine ⟨some x,hx,?_⟩
      rintro x' ⟨⟩
      exact ⟨by simp,hp⟩
    · obtain ⟨r,hr,hspec⟩ := ih fun y hy => hcons y (mem_cons_of_mem x hy)
      exact ⟨r,hx.trans hr,fun y hy => ⟨mem_cons_of_mem x (hspec y hy).1,(hspec y hy).2⟩⟩

lemma Wb.Inv.findBridge (hs : s.Inv) (name : Word) :
    ∃ r, findBridge s name s.wanBridgeList = some r ∧ ∀ b ∈ r, b ∈ s.wanBridgeList ∧
      ∃ br, s.bridge b = some br ∧ br.name = name ∧ Owned s b br := by
  refine find_spec rfl fun b hb bs => ?_
  obtain ⟨br,hbr,hown⟩ := hs.owned b hb
  by_cases hname : br.name = name
  · exact .inl ⟨by simp [WanBridge.findBridge,hbr,hname],br,hbr,hname,hown⟩
  · exact .inr (by simp [WanBridge.findBridge,hbr,hname])

lemma Owned.findDevice (hs : s.Inv) (hown : Owned s b br) (name : Word) :
    ∃ r, findDevice s name br.deviceList = some r ∧ ∀ d ∈ r, d ∈ br.deviceList := by
  suffices h : ∃ r, WanBridge.findDevice s name br.deviceList = some r ∧
    ∀ d ∈ r, d ∈ br.deviceList ∧ True by simpa using h
  refine find_spec rfl fun d hd ds => ?_
  obtain ⟨dev,hdev,-⟩ := hown.device d hd
  obtain ⟨devName,hnet⟩ := hs.net d dev hdev
  by_cases hname : devName = name
  · exact .inl ⟨by simp [WanBridge.findDevice,hdev,hnet,hname],trivial⟩
  · exact .inr (by simp [WanBridge.findDevice,hdev,hnet,hname])

lemma Owned.empty (s : Wb) (b : ℕ) (name : Word) (mode : Mode) :
    Owned s b ⟨name,mode,false,[],fun _ => none⟩ :=
  ⟨⟨by simp,by simp,by simp⟩,nodup_nil,by simp⟩

lemma Wb.Inv.createBridge (hs : s.Inv) (k : Kernel) {name : Word} (mode : Mode)
    (hname : name.length < maxLenWanBridgeName) :
    ∃ e s', createBridge k name mode s = some (e,s') ∧ s'.Inv := by
  unfold WanBridge.createBridge
  rw [if_neg (not_le.mpr hname),if_pos hs.linked_bridges]
  split_ifs
  · exact ⟨_,s,rfl,hs⟩
  · exact ⟨_,s,rfl,hs⟩
  · exact ⟨_,s,rfl,hs⟩
  refine ⟨_,_,rfl,?_,?_,hs.net,hs.net_inj,?_⟩
  · have hnew : s.next ∉ s.wanBridgeList := by
      intro hmem
      obtain ⟨br,hbr,-⟩ := hs.owned _ hmem
      exact absurd (hs.bridge_lt_next hbr) (lt_irrefl _)
    exact List.Nodup.append hs.nodup (nodup_singleton _) (by simpa using hnew)
  · intro b hb
    rcases mem_append.mp hb with hb | hb
    · obtain ⟨br,hbr,hown⟩ := hs.owned b hb
      have hne : b ≠ s.next := (hs.bridge_lt_next hbr).ne
      exact ⟨br,(update_of_ne hne ..).trans hbr,hown.frame fun _ _ => rfl⟩
    · obtain rfl : b = s.next := by simpa using hb
      exact ⟨_,update_self ..,Owned.empty ..⟩
  · intro x hx
    have hlt : s.next < x := hx
    refine ⟨?_,(hs.fresh x hlt.le).2⟩
    exact (update_of_ne hlt.ne' ..).trans (hs.fresh x hlt.le).1

lemma Wb.Inv.unlinkBridge (hs : s.Inv) (b : ℕ) : ∃ s', unlinkBridge b s = some s' ∧ s'.Inv := by
  unfold WanBridge.unlinkBridge
  rw [hs.linked_bridges,if_pos rfl]
  refine ⟨_,rfl,hs.nodup.erase b,?_,hs.net,hs.net_inj,?_⟩
  · intro b' hb'
    have hne : b' ≠ b := by
      rintro rfl
      exact hs.nodup.not_mem_erase hb'
    obtain ⟨br,hbr,hown⟩ := hs.owned b' (mem_of_mem_erase hb')
    exact ⟨br,(update_of_ne hne ..).trans hbr,hown.frame fun _ _ => rfl⟩
  intro x hx
  refine ⟨?_,(hs.fresh x hx).2⟩
  by_cases hxb : x = b
  · subst hxb
    exact update_self ..
  · exact (update_of_ne hxb ..).trans (hs.fresh x hx).1

def Bridge.without (br : Bridge) (d : ℕ) : Bridge :=
  { br with
    deviceList := br.deviceList.erase d
    ready := if (br.deviceList.erase d).isEmpty then false else br.ready }

def Wb.drop (s : Wb) (b d : ℕ) (br : Bridge) : Wb :=
  { s with
    bridge := update s.bridge b (some (br.without d))
    device := update s.device d none }

lemma detachDevice_eq (s : Wb) (b d : ℕ) (br : Bridge) (hbr : s.bridge b = some br)
    (hlinked : linked s.device br.deviceList = true) :
    detachDevice b d s = some (s.drop b d br) := by
  have hunlink : unlinkDevice b d s = some
      { s.setBridge b { br with deviceList := br.deviceList.erase d } with
        device := update s.device d none } := by
    simp only [unlinkDevice,hbr,hlinked,bind_eq_bind,bind_some,if_pos]
  simp only [detachDevice,hunlink,bind_eq_bind,bind_some]
  cases hempty : (br.deviceList.erase d).isEmpty with
  | true =>
    simp only [Wb.setBridge,Wb.drop,Bridge.without,hempty,bind_some,update_self,update_idem,if_pos]
  | false =>
    simp only [Wb.setBridge,Wb.drop,Bridge.without,hempty,bind_some,
      update_self,Bool.false_eq_true,if_false]

lemma update_none_eq_some {α : Type} {f : ℕ → Option α} {a : α}
    (h : update f d none x = some a) : x ≠ d ∧ f x = some a := by
  have hne : x ≠ d := by
    rintro rfl
    rw [update_self] at h
    cases h
  exact ⟨hne,(update_of_ne hne ..).symm.trans h⟩

lemma update_none_of_none {α : Type} {f : ℕ → Option α} (d : ℕ) (h : f x = none) :
    update f d none x = none := by
  by_cases hx : x = d
  · rw [hx,update_self]
  · rw [update_of_ne hx,h]

section Drop

variable {bucket : ℕ → Option ℕ}

lemma Owned.without_bucket (hown : Owned s b br) (hd : d ∈ br.deviceList)
    (hdev : s.device d = some dev) (hm : br.mode = .vlan) (k x : ℕ) :
    update br.bucket dev.vlanKey.toNat none k = some x ↔ x ∈ br.deviceList.erase d ∧
      ∃ dev', update s.device d none x = some dev' ∧ dev'.vlanKey = k := by
  have hkey : (dev.vlanKey.toNat : ℤ) = dev.vlanKey := by
    obtain ⟨dev',hdev',h0,-⟩ := hown.consistent.key_lt hm d hd
    obtain rfl : dev' = dev := some.inj (hdev'.symm.trans hdev)
    exact Int.toNat_of_nonneg h0
  have hbucket := hown.consistent.bucket hm
  rw [hown.nodup.mem_erase_iff]
  constructor
  · intro h
    obtain ⟨hk,h⟩ := update_none_eq_some h
    obtain ⟨hx,dev',hdev',hkey'⟩ := (hbucket k x).mp h
    have hne : x ≠ d := by
      rintro rfl
      rw [hdev] at hdev'
      cases hdev'
      omega
    exact ⟨⟨hne,hx⟩,dev',(update_of_ne hne ..).trans hdev',hkey'⟩
  rintro ⟨⟨hne,hx⟩,dev',hdev',hkey'⟩
  have h : br.bucket k = some x := (hbucket k x).mpr ⟨hx,dev',(update_none_eq_some hdev').2,hkey'⟩
  rw [update_of_ne,h]
  rintro rfl
  have hself := (hbucket _ d).mpr ⟨hd,dev,hdev,hkey.symm⟩
  exact hne (some.inj (h.symm.trans hself))

lemma Owned.without {s' : Wb} (hown : Owned s b br) (hd : d ∈ br.deviceList)
    (hdev : s.device d = some dev) (hdevice : s'.device = update s.device d none)
    (hbucket : br.mode = .vlan → bucket = update br.bucket dev.vlanKey.toNat none) :
    Owned s' b ({ br with bucket := bucket }.without d) := by
  have hkeep : ∀ x ∈ br.deviceList.erase d, x ∈ br.deviceList ∧ s'.device x = s.device x := by
    intro x hx
    obtain ⟨hne,hx⟩ := hown.nodup.mem_erase_iff.mp hx
    exact ⟨hx,by rw [hdevice,update_of_ne hne]⟩
  refine ⟨⟨?_,?_,?_⟩,hown.nodup.erase d,?_⟩
  · intro hm k x
    have h := hown.without_bucket hd hdev hm k x
    rwa [← hbucket hm,← hdevice] at h
  · intro hm x hx
    obtain ⟨hx,heq⟩ := hkeep x hx
    rw [heq]
    exact hown.consistent.key_lt hm x hx
  · have hready : br.ready = true := hown.consistent.ready.mpr (ne_nil_of_mem hd)
    cases h : br.deviceList.erase d <;> simp [Bridge.without,h,hready]
  · intro x hx
    obtain ⟨hx,heq⟩ := hkeep x hx
    rw [heq]
    exact hown.device x hx

lemma Wb.Inv.drop (hs : s.Inv) (hown : Owned s b br) (hd : d ∈ br.deviceList)
    (hdev : s.device d = some dev) (hfresh : b < s.next)
    (hbucket : br.mode = .vlan → bucket = update br.bucket dev.vlanKey.toNat none) :
    Wb.Inv { s.drop b d { br with bucket := bucket } with
      net := update s.net dev.netDevice none } := by
  refine ⟨hs.nodup,?_,?_,?_,?_⟩
  · intro b' hb'
    by_cases hbb : b' = b
    · subst hbb
      exact ⟨_,update_self ..,hown.without hd hdev rfl hbucket⟩
    obtain ⟨br',hbr',hown'⟩ := hs.owned b' hb'
    refine ⟨br',(update_of_ne hbb ..).trans hbr',hown'.frame fun x hx => ?_⟩
    -- the device points back to one bridge only
    refine update_of_ne ?_ ..
    rintro rfl
    obtain ⟨dev1,hdev1,hback1⟩ := hown.device x hd
    obtain ⟨dev2,hdev2,hback2⟩ := hown'.device x hx
    rw [hdev1] at hdev2
    cases hdev2
    exact hbb (hback2.symm.trans hback1)
  · intro x dev' hx
    obtain ⟨hne,hx⟩ := update_none_eq_some hx
    obtain ⟨name,hname⟩ := hs.net x dev' hx
    refine ⟨name,(update_of_ne ?_ ..).trans hname⟩
    exact fun heq => hne (hs.net_inj x d dev' dev hx hdev heq)
  · intro x x' dev1 dev2 hx hx' heq
    exact hs.net_inj x x' dev1 dev2 (update_none_eq_some hx).2 (update_none_eq_some hx').2 heq
  intro x hx
  obtain ⟨hbx,hdx,hnx⟩ := hs.fresh x hx
  have hne : x ≠ b := (hfresh.trans_le hx).ne'
  exact ⟨(update_of_ne hne ..).trans hbx,update_none_of_none d hdx,update_none_of_none _ hnx⟩

end Drop

def Wb.withNet (s : Wb) (name : Word) : Wb :=
  { s with net := update s.net s.next (some name), next := s.next+1 }

/-- The heap after `attachDevice` on top of `Wb.withNet`. -/
def Wb.withDevice (s : Wb) (name : Word) (b : ℕ) (br : Bridge) (key prio : ℤ) : Wb :=
  { s.withNet name with
    bridge := update s.bridge b
      (some { br with deviceList := br.deviceList ++ [s.next+1], ready := true })
    device := update s.device (s.next+1) (some ⟨s.next,key,prio,b⟩)
    next := s.next+2 }

lemma Wb.Inv.withNet (hs : s.Inv) (name : Word) : (s.withNet name).Inv := by
  refine ⟨hs.nodup,?_,?_,hs.net_inj,?_⟩
  · intro b hb
    obtain ⟨br,hbr,hown⟩ := hs.owned b hb
    exact ⟨br,hbr,hown.frame fun _ _ => rfl⟩
  · intro d dev hdev
    obtain ⟨name',hname'⟩ := hs.net d dev hdev
    exact ⟨name',(update_of_ne (hs.net_lt_next hdev).ne ..).trans hname'⟩
  · intro x hx
    have hlt : s.next < x := hx
    obtain ⟨hbx,hdx,hnx⟩ := hs.fresh x hlt.le
    exact ⟨hbx,hdx,(update_of_ne hlt.ne' ..).trans hnx⟩

lemma Owned.attach {bucket : ℕ → Option ℕ}
    (hown : Owned s b br) (hnew : d ∉ br.deviceList) (hback : dev.wanBridge = b)
    (hdevice : s'.device = update s.device d (some dev))
    (hvlan : br.mode = .vlan → 0 ≤ dev.vlanKey ∧ dev.vlanKey < maxVlanSupported ∧
      br.bucket dev.vlanKey.toNat = none ∧ bucket = update br.bucket dev.vlanKey.toNat (some d)) :
    Owned s' b { br with
      deviceList := br.deviceList ++ [d], ready := true, bucket := bucket } := by
  have hself : s'.device d = some dev := by rw [hdevice,update_self]
  have hkeep : ∀ x ∈ br.deviceList, s'.device x = s.device x := by
    intro x hx
    rw [hdevice,update_of_ne]
    rintro rfl
    exact hnew hx
  have hold : Owned s' b br := hown.frame hkeep
  refine ⟨⟨?_,?_,by simp⟩,?_,?_⟩
  · intro hm k x
    obtain ⟨h0,-,hfree,rfl⟩ := hvlan hm
    have hbucket := hold.consistent.bucket hm k x
    by_cases hk : k = dev.vlanKey.toNat
    · subst hk
      rw [hfree] at hbucket
      simp only [update_self,some.injEq,mem_append,mem_singleton,
        or_and_right,← hbucket,reduceCtorEq,false_or]
      constructor
      · rintro rfl
        exact ⟨rfl,dev,hself,by omega⟩
      · rintro ⟨rfl,-⟩
        rfl
    simp only [update_of_ne hk,mem_append,mem_singleton,or_and_right,← hbucket]
    refine ⟨Or.inl,?_⟩
    rintro (h | ⟨rfl,dev',hdev',hkey⟩)
    · exact h
    · rw [hself] at hdev'
      cases hdev'
      omega
  · intro hm x hx
    rcases mem_append.mp hx with hx | hx
    · exact hold.consistent.key_lt hm x hx
    · obtain rfl : x = d := by simpa using hx
      obtain ⟨h0,hlt,-⟩ := hvlan hm
      exact ⟨dev,hself,h0,hlt⟩
  · exact List.Nodup.append hown.nodup (nodup_singleton d) (by simpa using hnew)
  intro x hx
  rcases mem_append.mp hx with hx | hx
  · exact hold.device x hx
  · obtain rfl : x = d := by simpa using hx
    exact ⟨dev,hself,hback⟩

section Attach

variable {key prio : ℤ} {bucket : ℕ → Option ℕ}

lemma Wb.Inv.notMem_next (hs : s.Inv) (hown : Owned s b br) : s.next+1 ∉ br.deviceList := by
  intro hmem
  obtain ⟨dev,hdev,-⟩ := hown.device _ hmem
  have := hs.lt_next hdev
  omega

variable (prio) in
lemma Wb.Inv.attach (hs : s.Inv) (name : Word) (hown : Owned s b br) (hfresh : b < s.next)
    (hvlan : br.mode = .vlan → 0 ≤ key ∧ key < maxVlanSupported ∧ br.bucket key.toNat = none ∧
      bucket = update br.bucket key.toNat (some (s.next+1))) :
    Wb.Inv { s.withDevice name b br key prio with
      bridge := update s.bridge b (some { br with
        deviceList := br.deviceList ++ [s.next+1], ready := true, bucket := bucket }) } := by
  -- a device other than the new one is one of before
  have hdevice : ∀ x dev, update s.device (s.next+1) (some ⟨s.next,key,prio,b⟩) x =
      some dev → (x = s.next+1 ∧ dev.netDevice = s.next) ∨
        (s.device x = some dev ∧ dev.netDevice < s.next) := by
    intro x dev hx
    by_cases hxn : x = s.next+1
    · subst hxn
      rw [update_self] at hx
      cases hx
      exact .inl ⟨rfl,rfl⟩
    · rw [update_of_ne hxn] at hx
      exact .inr ⟨hx,hs.net_lt_next hx⟩
  refine ⟨hs.nodup,?_,?_,?_,?_⟩
  · intro b' hb'
    by_cases hbb : b' = b
    · subst hbb
      exact ⟨_,update_self ..,hown.attach (hs.notMem_next hown) rfl rfl hvlan⟩
    obtain ⟨br',hbr',hown'⟩ := hs.owned b' hb'
    refine ⟨br',(update_of_ne hbb ..).trans hbr',hown'.frame fun x hx => ?_⟩
    refine update_of_ne ?_ ..
    rintro rfl
    exact hs.notMem_next hown' hx
  · intro x dev hx
    rcases hdevice x dev hx with ⟨-,hn⟩ | ⟨hx,hn⟩
    · exact ⟨name,by rw [hn]; exact update_self ..⟩
    · obtain ⟨name',hname'⟩ := hs.net x dev hx
      exact ⟨name',(update_of_ne hn.ne ..).trans hname'⟩
  · intro x x' dev dev' hx hx' heq
    rcases hdevice x dev hx with ⟨rfl,hn⟩ | ⟨hx,hn⟩ <;>
      rcases hdevice x' dev' hx' with ⟨rfl,hn'⟩ | ⟨hx',hn'⟩
    · rfl
    · omega
    · omega
    · exact hs.net_inj x x' dev dev' hx hx' heq
  intro x hx
  have hlt : s.next+2 ≤ x := hx
  obtain ⟨hbx,hdx,hnx⟩ := hs.fresh x (by omega)
  exact ⟨(update_of_ne (by omega) ..).trans hbx,
    (update_of_ne (by omega) ..).trans hdx,
    (update_of_ne (by omega) ..).trans hnx⟩

lemma Owned.without_append {d : ℕ} (hown : Owned s b br) (hnew : d ∉ br.deviceList) :
    { br with deviceList := br.deviceList ++ [d], ready := true }.without d = br := by
  have herase : (br.deviceList ++ [d]).erase d = br.deviceList := by
    rw [erase_append_right _ hnew,erase_cons_head,append_nil]
  have hready := hown.consistent.ready
  cases br with
  | mk brName mode ready deviceList bucket =>
    simp only [Bridge.without,herase,Bridge.mk.injEq,true_and,and_true]
    cases deviceList <;> simp_all

variable (key prio) in
lemma undoAttach_eq (name : Word) (hdnone : s.device (s.next+1) = none)
    (hnnone : s.net s.next = none) (hlinked : linked s.device br.deviceList = true) :
    undoAttach b (s.next+1) s.next (s.withDevice name b br key prio) =
      some { s with
        bridge := update s.bridge b (some
          ({ br with deviceList := br.deviceList ++ [s.next+1], ready := true }.without (s.next+1)))
        next := s.next+2 } := by
  have hlinked : linked (s.withDevice name b br key prio).device
      (br.deviceList ++ [s.next+1]) = true := by
    refine linked_of_forall fun x hx => ?_
    by_cases hxn : x = s.next+1
    · subst hxn
      exact ⟨_,update_self ..⟩
    · obtain ⟨dev,hdev⟩ := isSome_iff_exists.mp
        (all_eq_true.mp hlinked x (by simpa [hxn] using hx))
      exact ⟨dev,(update_of_ne hxn ..).trans hdev⟩
  have hnet : (s.withDevice name b br key prio).net s.next = some name := update_self ..
  have hdrop := detachDevice_eq
    { s.withDevice name b br key prio with
      net := update (s.withNet name).net s.next none }
    b (s.next+1) { br with deviceList := br.deviceList ++ [s.next+1], ready := true }
    (update_self ..) hlinked
  have hundo : undoAttach b (s.next+1) s.next (s.withDevice name b br key prio) =
      detachDevice b (s.next+1) { s.withDevice name b br key prio with
        net := update (s.withNet name).net s.next none } := by
    simp only [undoAttach, wbDeviceUninitialize,hnet,bind_eq_bind,bind_some]
    rfl
  rw [hundo,hdrop,Wb.drop]
  simp only [Wb.withDevice,Wb.withNet,update_idem,← hdnone,← hnnone,update_eq_self]

variable (key prio) in
lemma Wb.Inv.undoAttach (hs : s.Inv) (name : Word) (hbr : s.bridge b = some br)
    (hown : Owned s b br) :
    undoAttach b (s.next+1) s.next (s.withDevice name b br key prio) =
      some { s with next := s.next+2 } := by
  obtain ⟨-,hdnone,-⟩ := hs.fresh (s.next+1) (by omega)
  obtain ⟨-,-,hnnone⟩ := hs.fresh s.next le_rfl
  rw [undoAttach_eq key prio name hdnone hnnone hown.linked,
    hown.without_append (hs.notMem_next hown),← hbr,update_eq_self]

lemma Wb.Inv.skip (hs : s.Inv) (n : ℕ) : Wb.Inv { s with next := s.next+n } := by
  refine ⟨hs.nodup,?_,hs.net,hs.net_inj,fun x hx => hs.fresh x ?_⟩
  · intro b hb
    obtain ⟨br,hbr,hown⟩ := hs.owned b hb
    exact ⟨br,hbr,hown.frame fun _ _ => rfl⟩
  · have hle : s.next+n ≤ x := hx
    omega

lemma attachDevice_eq (name : Word) (hbr : s.bridge b = some br) (hown : Owned s b br) :
    attachDevice b s.next key prio (s.withNet name) = some (s.withDevice name b br key prio) := by
  have hbr' : (s.withNet name).bridge b = some br := hbr
  have hlinked : linked (s.withNet name).device br.deviceList = true := hown.linked
  simp only [attachDevice,hbr',hlinked,bind_eq_bind,bind_some,if_pos]
  rfl

lemma Wb.Inv.createInterface (hs : s.Inv) (k : Kernel) {name : Word}
    (hname : name.length < ifnamsiz) (hbr : s.bridge b = some br) (hown : Owned s b br)
    (hkey : br.mode = .vlan → 0 < key ∧ key < maxVlanSupported) :
    ∃ e s', createInterface k b name key prio s = some (e,s') ∧ s'.Inv := by
  have hlt : b < s.next := hs.bridge_lt_next hbr
  have hinit : wbDeviceInitialize k name s = some none ∨ ∃ registered,
      wbDeviceInitialize k name s = some (some (s.next,s.withNet registered)) := by
    unfold wbDeviceInitialize
    rw [if_neg (not_le.mpr hname)]
    split_ifs
    · exact .inl rfl
    · exact .inl rfl
    · cases k.register with
      | none => exact .inl rfl
      | some registered => exact .inr ⟨registered,rfl⟩
  unfold WanBridge.createInterface
  rcases hinit with hinit | ⟨registered,hinit⟩
  · rw [hinit]
    exact ⟨_,s,rfl,hs⟩
  simp only [hinit,bind_eq_bind,bind_some]
  cases k.deviceMalloc with
  | false => exact ⟨_,_,rfl,hs.withNet registered⟩
  | true =>
    have hnew : (s.withDevice registered b br key prio).bridge b = some
        { br with deviceList := br.deviceList ++ [s.next+1], ready := true } :=
      update_self ..
    simp only [attachDevice_eq registered hbr hown,hnew,bind_some,Bool.not_true,
      Bool.false_eq_true,if_false]
    cases hm : br.mode with
    | nonVlan =>
      exact ⟨_,_,rfl,hs.attach prio registered hown hlt (by simp [hm])⟩
    | vlan =>
      obtain ⟨hpos,hmax⟩ := hkey hm
      simp only [wbAdd,if_pos (show 0 ≤ key ∧ key < maxVlanSupported from ⟨hpos.le,hmax⟩)]
      cases hfree : br.bucket key.toNat with
      | none =>
        refine ⟨_,_,rfl,?_⟩
        have hinv := hs.attach prio registered hown hlt
          fun _ => ⟨hpos.le,hmax,hfree,rfl⟩
        simpa only [Wb.setBridge,Wb.withDevice,Wb.withNet,update_idem,hm] using hinv
      | some d =>
        have hundo := hs.undoAttach key prio registered hbr hown
        simp only [Wb.withNet,hundo,bind_some]
        exact ⟨_,_,rfl,hs.skip 2⟩

end Attach

lemma Wb.Inv.removeInterface (hs : s.Inv) (hbr : s.bridge b = some br) (hown : Owned s b br)
    (hd : d ∈ br.deviceList) :
    ∃ e s', removeInterface b d s = some (e,s') ∧ s'.Inv := by
  obtain ⟨dev,hdev,-⟩ := hown.device d hd
  obtain ⟨name,hnet⟩ := hs.net d dev hdev
  have hlt := hs.bridge_lt_next hbr
  simp only [WanBridge.removeInterface, wbDeviceUninitialize,hdev,hnet,hbr,bind_eq_bind,bind_some]
  cases hm : br.mode with
  | nonVlan =>
    have hdrop := detachDevice_eq
      { s with net := update s.net dev.netDevice none } b d br hbr hown.linked
    simp only [hdrop,bind_some]
    exact ⟨0,_,rfl,hs.drop hown hd hdev hlt (by simp [hm])⟩
  | vlan =>
    obtain ⟨dev',hdev',h0,hmax⟩ := hown.consistent.key_lt hm d hd
    obtain rfl : dev' = dev := some.inj (hdev'.symm.trans hdev)
    have hkey : br.bucket dev'.vlanKey.toNat = some d :=
      (hown.consistent.bucket hm _ d).mpr ⟨hd,dev',hdev',(Int.toNat_of_nonneg h0).symm⟩
    simp only [wbDelete,if_pos (And.intro h0 hmax),hkey,bind_some]
    have hdrop := detachDevice_eq
      ({ s with net := update s.net dev'.netDevice none }.setBridge b
        { br with bucket := update br.bucket dev'.vlanKey.toNat none })
      b d _ (update_self ..) hown.linked
    simp only [hdrop,bind_some]
    simp only [Wb.drop,Wb.setBridge,update_idem]
    exact ⟨0,_,rfl,hs.drop hown hd hdev hlt fun _ => rfl⟩

lemma asInt_ne {v : UInt32} (hv : v ≠ 4095) : asInt v ≠ 4095 := by
  intro h
  have hb : v.toBitVec = (4095 : UInt32).toBitVec := BitVec.toInt_inj.mp h
  exact hv (UInt32.toBitVec_inj.mp hb)

lemma keyAndPriority_key {args : List Word} {key prio : ℤ}
    (h : keyAndPriority .vlan args = .ok (key,prio))
    (hne : ∀ arg ∈ args[0]?, simpleStrtoul arg ≠ 4095) : 0 < key ∧ key < maxVlanSupported := by
  cases args with
  | nil => cases h
  | cons keyArg rest =>
    have hkey : asInt (simpleStrtoul keyArg) ≠ 4095 := asInt_ne (hne keyArg (by simp))
    have hmax : (maxVlanSupported : ℤ) = 4095 := rfl
    dsimp only [keyAndPriority] at h
    split at h
    · cases h
    rename_i hrange
    have hres : key = asInt (simpleStrtoul keyArg) := by
      split at h
      · cases h
        rfl
      · split at h
        · cases h
        · cases h
          rfl
    omega

/-- A command that overruns no name, names no key without a bucket, and deletes a bridge only
when no device is attached to it (or when the source interface refuses). -/
def Command.Safe (s : Wb) : Command → Prop
  | .addBridge _ argv => ∀ name ∈ argv[1]?, name.length < maxLenWanBridgeName
  | .delBridge k argv => k.doIoctl = true → ∀ name ∈ argv[1]?, ∀ b ∈ s.wanBridgeList,
    ∀ br, s.bridge b = some br → br.name = name → br.deviceList = []
  | .addInterface _ argv => (∀ name ∈ argv[2]?, name.length < ifnamsiz) ∧
    ∀ key ∈ argv[3]?, simpleStrtoul key ≠ 4095
  | .delInterface _ => True

/-- Every command of the run is safe in the state it meets. -/
def RunSafe : Wb → List Command → Prop
  | _, [] => True
  | s, c :: cs => c.Safe s ∧ ∀ e s', s.step c = some (e,s') → RunSafe s' cs

section
variable (hs : s.Inv)
include hs

variable (k : Kernel) (argv : List Word)

lemma Wb.Inv.wbAddBridge
    (hsafe : (Command.addBridge k argv).Safe s) :
    ∃ e s', wbAddBridge k argv s = some (e,s') ∧ s'.Inv := by
  unfold WanBridge.wbAddBridge
  split
  · rename_i a0 name a2 modeArg
    obtain ⟨r,hr,-⟩ := hs.findBridge name
    simp only [hr,bind_eq_bind,bind_some]
    cases r with
    | some b => exact ⟨_,s,rfl,hs⟩
    | none =>
      dsimp only
      split_ifs
      · exact ⟨_,s,rfl,hs⟩
      · cases parseMode modeArg with
        | none => exact ⟨_,s,rfl,hs⟩
        | some mode => exact hs.createBridge k mode (hsafe name rfl)
  · exact ⟨_,s,rfl,hs⟩

lemma Wb.Inv.wbDelBridge
    (hsafe : (Command.delBridge k argv).Safe s) :
    ∃ e s', wbDelBridge k argv s = some (e,s') ∧ s'.Inv := by
  unfold WanBridge.wbDelBridge
  split
  · rename_i a0 name
    obtain ⟨r,hr,hspec⟩ := hs.findBridge name
    simp only [hr,bind_eq_bind,bind_some]
    cases r with
    | none => exact ⟨_,s,rfl,hs⟩
    | some b =>
      obtain ⟨hmem,br,hbr,hname,-⟩ := hspec b rfl
      cases hio : k.doIoctl with
      | false => exact ⟨_,s,rfl,hs⟩
      | true =>
        have hempty : br.deviceList = [] := hsafe hio name rfl b hmem br hbr hname
        obtain ⟨s',hs',hinv⟩ := hs.unlinkBridge b
        exact ⟨0,s',by simp [hbr,hempty,deattachDevices,hs'],hinv⟩
  · exact ⟨_,s,rfl,hs⟩

lemma Wb.Inv.wbAddInterface
    (hsafe : (Command.addInterface k argv).Safe s) :
    ∃ e s', wbAddInterface k argv s = some (e,s') ∧ s'.Inv := by
  unfold WanBridge.wbAddInterface
  split
  · rename_i a0 name ifname args
    obtain ⟨hifname,hkeyArg⟩ := hsafe
    by_cases hargs : 2 < args.length
    · rw [if_pos hargs]
      exact ⟨_,s,rfl,hs⟩
    obtain ⟨r,hr,hspec⟩ := hs.findBridge name
    simp only [if_neg hargs,hr,bind_eq_bind,bind_some]
    cases r with
    | none => exact ⟨_,s,rfl,hs⟩
    | some b =>
      obtain ⟨-,br,hbr,-,hown⟩ := hspec b rfl
      simp only [hbr,bind_some]
      cases k.devGetByName with
      | true => exact ⟨_,s,rfl,hs⟩
      | false =>
        cases hkp : keyAndPriority br.mode args with
        | error e => exact ⟨e,s,rfl,hs⟩
        | ok kp =>
          refine hs.createInterface k (hifname ifname rfl) hbr hown fun hm => ?_
          rw [hm] at hkp
          exact keyAndPriority_key hkp hkeyArg
  · exact ⟨_,s,rfl,hs⟩

lemma Wb.Inv.wbDelInterface : ∃ e s', wbDelInterface argv s = some (e,s') ∧ s'.Inv := by
  unfold WanBridge.wbDelInterface
  split
  · rename_i a0 name ifname
    obtain ⟨r,hr,hspec⟩ := hs.findBridge name
    simp only [hr,bind_eq_bind,bind_some]
    cases r with
    | none => exact ⟨_,s,rfl,hs⟩
    | some b =>
      obtain ⟨-,br,hbr,-,hown⟩ := hspec b rfl
      obtain ⟨r,hr,hmem⟩ := hown.findDevice hs ifname
      simp only [hbr,hr,bind_some]
      cases r with
      | none => exact ⟨_,s,rfl,hs⟩
      | some d => exact hs.removeInterface hbr hown (hmem d rfl)
  · exact ⟨_,s,rfl,hs⟩

lemma Wb.Inv.step (c : Command) (hsafe : c.Safe s) : ∃ e s', s.step c = some (e,s') ∧ s'.Inv := by
  cases c with
  | addBridge k argv => exact hs.wbAddBridge k argv hsafe
  | delBridge k argv => exact hs.wbDelBridge k argv hsafe
  | addInterface k argv => exact hs.wbAddInterface k argv hsafe
  | delInterface argv => exact hs.wbDelInterface argv

lemma Wb.Inv.run {cs : List Command} (hsafe : RunSafe s cs) :
    ∃ s', s.run cs = some s' ∧ s'.Inv := by
  induction cs generalizing s with
  | nil => exact ⟨s,rfl,hs⟩
  | cons c cs ih =>
    obtain ⟨e,s1,hstep,hs1⟩ := hs.step c hsafe.1
    obtain ⟨s',hrun,hs'⟩ := ih hs1 (hsafe.2 e s1 hstep)
    exact ⟨s',by simp [Wb.run,hstep,hrun],hs'⟩

end

/-- Over every run of safe commands no command touches freed memory or leaves an array, and the
buckets, the device lists and the states agree at the end. -/
theorem run_consistent (cs : List Command) (hsafe : RunSafe Wb.init cs) :
    ∃ s, Wb.init.run cs = some s ∧ s.Consistent := by
  obtain ⟨s,hrun,hs⟩ := Wb.Inv.init.run hsafe
  exact ⟨s,hrun,hs.consistent⟩

def readyKernel (registered : Word) : Kernel :=
  ⟨false,true,true,true,true,true,some registered,true⟩

def addSampleBridge : Command :=
  .addBridge { readyKernel [] with devGetByName := true }
    [ofString "addbr",ofString "wb",ofString "eth0",ofString "1"]

def sampleArgv : List Word := [ofString "addif",ofString "wb",ofString "w5",ofString "5"]

def addSampleInterface : Command := .addInterface (readyKernel (ofString "w5")) sampleArgv

lemma safe_addSampleBridge (s : Wb) : addSampleBridge.Safe s := by
  rintro name ⟨⟩
  decide

lemma safe_addSampleInterface (s : Wb) : addSampleInterface.Safe s := by
  refine ⟨?_,?_⟩
  · rintro name ⟨⟩
    decide
  · rintro key ⟨⟩
    decide

/-- The same key a second time is refused, and the device can be deleted. -/
theorem run_consistent_duplicate_key :
    ∃ s, Wb.init.run [addSampleBridge,addSampleInterface,addSampleInterface,
      .delInterface [ofString "delif",ofString "wb",ofString "w5"]] = some s ∧ s.Consistent := by
  refine run_consistent _ ⟨safe_addSampleBridge _,fun _ _ _ => ⟨safe_addSampleInterface _,
    fun _ _ _ => ⟨safe_addSampleInterface _,fun _ _ _ => ⟨trivial,fun _ _ _ => trivial⟩⟩⟩⟩

/-- Deleting a bridge with a device on it reads the device after it was freed. -/
theorem run_consistent_fails_delBridge :
    ¬ ∃ s, Wb.init.run [addSampleBridge,addSampleInterface,
      .delBridge (readyKernel []) [ofString "delbr",ofString "wb"]] = some s ∧ s.Consistent := by
  rintro ⟨s,hrun,-⟩
  cases hrun

end DslG624t.WanBridge
