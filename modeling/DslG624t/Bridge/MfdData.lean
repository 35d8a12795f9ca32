import DslG624t.Bridge.FastPath
import DslG624t.Bridge.MfdMap

/-!
# Multicast data frames

`br_handle_mc` looks the group of a data frame up in the database and sends the frame to its ports.
-/

namespace DslG624t.Bridge.FastPath

open Forward List

variable {c : Forward.Br} {skb : ℕ} {dev : Dev} {w : World}

lemma did_dataPorts (hc : ∀ k, c.cloneFails k = false) (hf : c.brFilterActive = false)
    (pnode : PNode) (rest : List PNode) (hlt : skb < w.made) (hdev : w.dev skb = dev) :
    Did w (dataPorts c skb pnode rest w).2
      (((pnode :: rest).map PNode.dst).filter fun p => shouldDeliver c p dev, 0) := by
  induction rest generalizing pnode w with
  | nil => exact hdev ▸ (brSendFrame_sendsOn hf pnode.dst skb w).toDid
  | cons next rest ih =>
    obtain ⟨w1,hclone,hw1,hmade,hnew,hold⟩ := skbClone_ok hc skb w
    have hfirst := brSendFrame_sendsOn hf pnode.dst w.made w1
    have hrest := ih (w := brSendFrame c pnode.dst w.made w1) next (by rw [hfirst.made]; omega)
      (by rw [hfirst.dev skb hlt.ne,hold skb hlt.ne,hdev])
    rw [hnew,hdev] at hfirst
    have hall := hw1.after (hfirst.toDid.trans hrest)
    rw [← filter_append] at hall
    rw [dataPorts,hclone]
    exact hall

lemma count_delivered (dev : Dev) {ps : List ℕ} (hps : ps.Nodup) (p : ℕ) :
    (ps.filter fun p => shouldDeliver c p dev).count p =
      if p ∈ ps ∧ c.forwarding p = true ∧ dev ≠ .port p then 1 else 0 := by
  rw [(hps.filter _).count]
  simp [shouldDeliver,and_comm]

lemma did_brMfdGet (group : UInt32) (w : World) : Did w (brMfdGet group w).2 ([],0) :=
  (did_emit _ w).after (did_emit (.lock (.release .mfdHashLock .read)) _)

open Mfd in
def portsOf (s : Mfd.State) (group : UInt32) : Option (Option (List ℕ)) :=
  (findEntry group (s.ents+1) s (s.links.head (brAddrHash group))).bind fun
    | none => some none
    | some mfd => (readPorts s (s.nodes+1) (s.plist mfd)).map fun ps => some (ps.map Prod.fst)

open Mfd in
structure Database (s : Mfd.State) (db : ℕ → List Group) : Prop where
  rep : Rep s db
  addrs : ((flat db).map Group.addr).Nodup
  ports : ∀ g ∈ flat db, (g.members.map Member.dst).Nodup

open Mfd in
def InGroup (db : ℕ → List Group) (group : UInt32) (p : ℕ) : Prop :=
  ∃ g ∈ flat db, g.addr = group ∧ p ∈ g.members.map Member.dst

open Mfd in
lemma Database.portsOf_eq {s : Mfd.State} {db : ℕ → List Group} (h : Database s db)
    (group : UInt32) :
    ∃ o : Option (List ℕ), portsOf s group = some o ∧ (o.getD []).Nodup ∧
      ∀ p, p ∈ o.getD [] ↔ InGroup db group p := by
  rw [portsOf,h.rep.findEntry_eq group,Option.bind_some]
  cases hg : (db (brAddrHash group)).find? (·.addr = group) with
  | none =>
    refine ⟨none,rfl,nodup_nil,fun p => iff_of_false not_mem_nil ?_⟩
    rintro ⟨g,hmem,haddr,-⟩
    obtain ⟨i,-,hmem⟩ := mem_flatMap.mp hmem
    rw [← h.rep.hash i g hmem,haddr] at hmem
    exact find?_eq_none.mp hg g hmem (by simpa using haddr)
  | some g =>
    have hmem := mem_of_find?_eq_some hg
    have haddr : g.addr = group := by simpa using find?_some hg
    have hholds := h.rep.holds _ g hmem
    have hports := readPorts_eq hholds.list hholds.node (h.rep.members_length hholds)
    refine ⟨some (g.members.map Member.dst),?_,h.ports g (h.rep.mem_flat hmem),fun p => ?_⟩
    · simp [hports,Function.comp_def]
    constructor
    · intro hp
      exact ⟨g,h.rep.mem_flat hmem,haddr,hp⟩
    · rintro ⟨g',hmem',haddr',hp⟩
      have heq : g' = g := inj_on_of_nodup_map h.addrs hmem' (h.rep.mem_flat hmem)
        (haddr'.trans haddr.symm)
      exact heq ▸ hp

open Mfd in
lemma inGroup_iff {db : ℕ → List Group} {m : Members} (h : Sound (flat db) m) {group : UInt32}
    {p : ℕ} : InGroup db group p ↔ (m group p).isSome := by
  rw [Option.isSome_iff_exists]
  constructor
  · rintro ⟨g,hg,haddr,hp⟩
    obtain ⟨x,hx,rfl⟩ := mem_map.mp hp
    exact ⟨x.vinfo,(h.mem _ _ _).mpr ⟨g,hg,haddr,x,hx,rfl,rfl⟩⟩
  · rintro ⟨v,hv⟩
    obtain ⟨g,hg,haddr,x,hx,rfl,-⟩ := (h.mem _ _ v).mp hv
    exact ⟨g,hg,haddr,mem_map_of_mem hx⟩

open Mfd in
/-- A frame to a group with ports goes once to each of them that forwards and is not the one it
came in on, and to no other.  A frame to a group without ports is flooded if the bridge sends it
to an address that is always flooded, and is dropped otherwise. -/
theorem dataFrame_sent {s : Mfd.State} {db : ℕ → List Group} (h : Database s db)
    (hmfd : ∀ a, portsOf s a = some ((w.mfd a).map (map PNode.dst))) (conf : Option ConfMode)
    (mode : Forward.Mode) (hip : c.isIp = true) (higmp : c.isIgmp = false)
    (hf : c.brFilterActive = false) (hc : ∀ k, c.cloneFails k = false) (hlt : skb < w.made) :
    ∃ out, sent (brHandleMc conf c skb mode w).2 = sent w ++ out ∧
      ((∃ p, InGroup db c.daddr p) → ∀ p,
        (InGroup db c.daddr p ∧ c.forwarding p = true ∧ w.dev skb ≠ .port p → out.count p = 1) ∧
        (¬ (InGroup db c.daddr p ∧ c.forwarding p = true ∧ w.dev skb ≠ .port p) →
          out.count p = 0)) ∧
      ((¬ ∃ p, InGroup db c.daddr p) → out = if mode = .forward ∧ floodMcast c.daddr = true then
          c.portList.filter fun p => shouldDeliver c p (w.dev skb)
        else []) := by
  obtain ⟨o,ho,hnodup,hmem⟩ := h.portsOf_eq c.daddr
  obtain rfl := Option.some.inj (ho.symm.trans (hmfd c.daddr))
  have hlook := (did_emit (.use skb) w).after (did_brMfdGet c.daddr _)
  rw [brHandleMc,if_pos hip,if_neg (by simp [higmp])]
  rcases hports : w.mfd c.daddr with _ | _ | ⟨pnode,rest⟩
  case some.cons =>
    have hget : (w.emit (.use skb)).mfd c.daddr = some (pnode :: rest) := hports
    simp only [brMfdGet,hget]
    refine ⟨_,(hlook.after (did_dataPorts hc hf pnode rest hlt rfl)).sent,fun _ p => ?_,?_⟩
    · rw [← hmem p,hports]
      rw [hports] at hnodup
      have hcount := count_delivered (c := c) (w.dev skb) hnodup p
      exact ⟨fun hp => hcount.trans (if_pos hp),fun hp => hcount.trans (if_neg hp)⟩
    · intro hnone
      exact absurd ⟨pnode.dst,(hmem _).mp (by simp [hports])⟩ hnone
  all_goals
    have hempty : ¬ ∃ p, InGroup db c.daddr p := by
      rintro ⟨p,hp⟩
      simpa [hports] using (hmem p).mpr hp
    have hget : (w.emit (.use skb)).mfd c.daddr = w.mfd c.daddr := rfl
    simp only [brMfdGet,hget,hports]
    split
    · have hflood := did_brFlood (w := (brMfdGet c.daddr (w.emit (.use skb))).2) hc hf hlt rfl false
      exact ⟨_,(hlook.after hflood).sent,fun hp => absurd hp hempty,fun _ => rfl⟩
    · exact ⟨_,(hlook.after (did_emit (.free skb) _)).sent,fun hp => absurd hp hempty,fun _ => rfl⟩

/-- A frame of the bridge to 224.0.0.5, over one port that forwards. -/
def helloFrame : Br where
  portList := [1]
  state _ := BR_STATE_FORWARDING
  brFilterActive := false
  filterFrame _ := false
  mcForwarding := true
  fdb := none
  data i := [1,0,0x5e,0,0,5,0,0,0,0,0,0,8,0,0x45,0,0,0,0,0,0,0,1,89,0,0,10,0,0,1,224,0,0,5].getD i 0
  cloneFails _ := false
  allocEntry := true
  allocPort := true

/-- The same frame from port 1, over three ports of which the last one does not forward. -/
def memberFrame : Br := { helloFrame with
  portList := [1,2,3], state := fun p => if p = 3 then 0 else BR_STATE_FORWARDING }

open Mfd in
/-- The three ports are the members of the group, and only the second one gets the frame. -/
theorem dataFrame_sent_members : ∃ s db w, Database s db ∧
    (∀ p, InGroup db memberFrame.daddr p ↔ p = 1 ∨ p = 2 ∨ p = 3) ∧
    ∀ p, (sent (brHandleMc none memberFrame 0 (.input 1) w).2).count p =
      if p = 2 then 1 else 0 := by
  have hsafe : RunSafe State.init ([1,2,3].map fun p => .report p memberFrame.daddr 0x16 true true) :=
    ⟨fun _ _ _ _ => rfl,fun _ _ => ⟨fun _ _ _ _ => rfl,fun _ _ => ⟨fun _ _ _ _ => rfl,
      fun _ _ => trivial⟩⟩⟩
  obtain ⟨s,-,db,hrep,hsound⟩ := inv_init.run hsafe
  have hdb : Database s db := ⟨hrep,hsound.addrs,hsound.ports⟩
  have hmem (p : ℕ) : InGroup db memberFrame.daddr p ↔ p = 1 ∨ p = 2 ∨ p = 3 := by
    rw [inGroup_iff hsound]
    simp only [map_cons,map_nil,foldl_cons,foldl_nil,Op.abstract]
    simp [Function.update_apply]
    grind
  let w := World.start (.port 1)
    (fun a => ((portsOf s a).getD none).map (map fun p => ⟨p,false⟩)) .notApplicable
  have hw (a : UInt32) : portsOf s a = some ((w.mfd a).map (map PNode.dst)) := by
    obtain ⟨o,ho,-⟩ := hdb.portsOf_eq a
    simp [w,World.start,ho,Function.comp_def]
  obtain ⟨out,hsent,hout,-⟩ := dataFrame_sent hdb hw none (.input 1) (c := memberFrame)
    (by decide) (by decide) rfl (fun _ => rfl) zero_lt_one
  refine ⟨s,db,w,hdb,hmem,fun p => ?_⟩
  obtain ⟨hone,hzero⟩ := hout ⟨1,(hmem 1).mpr (.inl rfl)⟩ p
  rw [hsent,show sent w = [] from rfl,nil_append]
  split
  next hp => exact hone ⟨(hmem p).mpr (.inr (.inl hp)),hp ▸ by decide,by simp [w,World.start,hp]⟩
  next hp =>
    refine hzero ?_
    rintro ⟨hin,hfwd,hdev⟩
    obtain rfl | rfl | rfl := (hmem p).mp hin
    · exact hdev rfl
    · exact hp rfl
    · exact absurd hfwd (by decide)

open Mfd in
/-- The entry of the group stays without a port when there is no memory for the node, and the frame
is flooded all the same. -/
theorem dataFrame_floods_entry :
    ∃ s, brMfdInsert State.init 1 helloFrame.daddr IGMP_V2_MEMBERSHIP_REPORT true false = some s ∧
      portsOf s helloFrame.daddr = some (some []) ∧
      sent (brHandleMc none helloFrame 0 .forward
        (World.start .bridge (fun a => if a = helloFrame.daddr then some [] else none)
          .notApplicable)).2 = [1] :=
  ⟨_,rfl,by decide +kernel,by decide +kernel⟩

end DslG624t.Bridge.FastPath
