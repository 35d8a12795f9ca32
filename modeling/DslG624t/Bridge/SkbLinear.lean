import DslG624t.Bridge.Forward

/-!
# Socket buffers are consumed once

Along a trace every buffer is made, used and consumed: queued on a port, passed up the stack or
freed.
-/

namespace DslG624t.Bridge.Forward

open Function List Monitor
open Mfd (IGMP_V1_MEMBERSHIP_REPORT)

def Event.life : Event → List LifeEv
  | .alloc skb => [.born skb]
  | .clone skb new => [.touch skb,.born new]
  | .use skb => [.touch skb]
  | .queue skb _ => [.drop skb]
  | .passUp skb => [.drop skb]
  | .free skb => [.drop skb]
  | .lock _ => []

def World.life (w : World) : Option (ℕ → Life) :=
  run lifeStep (fun b => if b = 0 then .live else .unborn) (w.trace.flatMap Event.life)

def Linear (w : World) : Prop := ∃ s, w.life = some s ∧ ∀ b, s b ≠ .live

def World.Owns (w : World) (S : Set ℕ) : Prop := ∃ s, w.life = some s ∧ Monitor.Owns w.made S s

variable {c : Br} {w : World} {S : Set ℕ} {skb : ℕ} {e : Event} {k n p source : ℕ}
  {mfd : UInt32 → Option (List PNode)}

lemma World.Owns.linear_iff_empty (h : w.Owns S) : Linear w ↔ S = ∅ := by
  obtain ⟨s,hs,hown⟩ := h
  constructor
  · rintro ⟨s',hs',hgone⟩
    obtain rfl : s = s' := Option.some.inj (hs.symm.trans hs')
    exact Set.eq_empty_of_forall_notMem fun b hb => hgone b ((hown.live b).mpr hb)
  · rintro rfl
    exact ⟨s,hs,fun b hb => (hown.live b).mp hb⟩

lemma World.Owns.linear (h : w.Owns ({skb} \ {skb})) : Linear w := by
  rw [h.linear_iff_empty]
  grind

lemma not_linear_of_life (h : w.life = none) : ¬ Linear w := by
  rintro ⟨s,hs,-⟩
  rw [h] at hs
  cases hs

lemma owns_start (dev : Dev) (mfd : UInt32 → Option (List PNode)) (isQuerier : Querier) :
    (World.start dev mfd isQuerier).Owns {0} :=
  held_nil

lemma World.life_emit (w : World) (e : Event) :
    (w.emit e).life = w.life.bind fun s => run lifeStep s e.life := by
  simp [World.life,World.emit,flatMap_append,run_append]

lemma World.Owns.congr {w' : World} (h : w.Owns S) (htrace : w'.trace = w.trace)
    (hmade : w'.made = w.made) : w'.Owns S := by
  obtain ⟨s,hs,hown⟩ := h
  refine ⟨s,?_,hmade ▸ hown⟩
  rw [World.life,htrace]
  exact hs

lemma World.Owns.emit {S' : Set ℕ} (h : Held (w.trace.flatMap Event.life ++ e.life) w.made S') :
    (w.emit e).Owns S' := by
  have hlife : (w.emit e).trace.flatMap Event.life = w.trace.flatMap Event.life ++ e.life := by
    simp [World.emit,flatMap_append]
  rw [← hlife] at h
  exact h

lemma World.Owns.lock (h : w.Owns S) (ev : LockEv Lock) : (w.emit (.lock ev)).Owns S :=
  .emit (by rwa [Event.life,append_nil])

lemma World.Owns.twice (h : w.Owns S) (hskb : skb ∉ S) (he : e.life = [.drop skb]) :
    (w.emit e).life = none := by
  obtain ⟨s,hs,hown⟩ := h
  simp [World.life_emit,hs,he,run,hown.drop_none hskb]

lemma World.life_emit_none (h : w.life = none) (e : Event) : (w.emit e).life = none := by
  rw [World.life_emit,h]
  rfl

lemma skbClone_fails (h : c.cloneFails w.calls = true) :
    skbClone c skb w = (none,{ w.emit (.use skb) with calls := w.calls+1 }) := by
  simp [skbClone,h]

def World.cloned (w : World) (skb : ℕ) : World :=
  { w.emit (.clone skb w.made) with
    calls := w.calls+1
    made := w.made+1
    dev := update w.dev w.made (w.dev skb) }

lemma skbClone_works (h : c.cloneFails w.calls = false) :
    skbClone c skb w = (some w.made,w.cloned skb) := by
  simp [skbClone,h,World.cloned]

lemma World.Owns.insert_made_diff (h : w.Owns S) : insert w.made S \ {w.made} = S :=
  Held.insert_diff h

lemma brSendFrame_calls (dst : ℕ) : (brSendFrame c dst skb w).calls = w.calls := by
  dsimp only [brSendFrame]
  split
  · split
    · split <;> rfl
    · rfl
  · rfl

lemma brSendFrame_dev (dst : ℕ) {b : ℕ} (hb : b ≠ skb) :
    (brSendFrame c dst skb w).dev b = w.dev b := by
  have hset : ((w.emit (.use skb)).setDev skb (.port dst)).dev b = w.dev b :=
    update_of_ne hb _ _
  dsimp only [brSendFrame]
  split
  · split
    · split <;> exact hset
    · exact hset
  · rfl

lemma brPassFrameUp_life_none (h : w.life = none) : (brPassFrameUp skb w).life = none := by
  have huse : ((w.emit (.use skb)).setDev skb .bridge).life = none := World.life_emit_none h _
  exact World.life_emit_none huse _

def Br.FailsIn (c : Br) (k n : ℕ) : Prop := ∃ i < n, c.cloneFails (k+i) = true

lemma failsIn_succ : c.FailsIn k (n+1) ↔ c.cloneFails k = true ∨ c.FailsIn (k+1) n := by
  constructor
  · rintro ⟨i,hi,hf⟩
    cases i with
    | zero => exact .inl hf
    | succ i => exact .inr ⟨i,by omega,by rw [← hf]; congr 1; omega⟩
  · rintro (hf | ⟨i,hi,hf⟩)
    · exact ⟨0,by omega,hf⟩
    · exact ⟨i+1,by omega,by rw [← hf]; congr 1; omega⟩

lemma not_failsIn_zero : ¬ c.FailsIn k 0 := by
  rintro ⟨i,hi,-⟩
  omega

lemma suppressed_resetReport (hp : p ≠ source) (plist : List PNode) :
    suppressed (resetReport source plist) p = suppressed plist p := by
  induction plist with
  | nil => rfl
  | cons n ns ih =>
    by_cases hn : n.dst = source
    · have hne : source ≠ p := fun he => hp he.symm
      simp [resetReport,hn,suppressed,hne]
    · by_cases hnp : n.dst = p
      · simp [resetReport,suppressed,hnp,hp]
      · simpa [resetReport,hn,suppressed,hnp] using ih

lemma suppressed_cons (hp : p ≠ source) (plist : List PNode) :
    suppressed (⟨source,false⟩ :: plist) p = suppressed plist p := by
  have hne : source ≠ p := fun he => hp he.symm
  simp [suppressed,hne]

def Br.reportPorts (c : Br) (source : ℕ) (plist : List PNode) : List ℕ :=
  c.portList.filter fun p => shouldDeliver c p (.port source) && !suppressed plist p

lemma reportPorts_congr {plist plist' : List PNode}
    (h : ∀ p, p ≠ source → suppressed plist' p = suppressed plist p) :
    c.reportPorts source plist' = c.reportPorts source plist := by
  refine filter_congr fun p _ => ?_
  by_cases hp : p = source
  · simp [shouldDeliver,hp]
  · rw [h p hp]

def Br.reportLearned (c : Br) (source : ℕ) : Option (List PNode) → Bool
  | some plist => plist.any (·.dst = source) || c.allocPort
  | none => c.allocEntry && c.allocPort

/-- A report or leave from `source` whose buffer is freed by the flood as well as by
`br_handle_mc`; `k` calls of `skb_clone` went before. -/
def Br.FreedTwice (c : Br) (source : ℕ) (mfd : UInt32 → Option (List PNode)) (k : ℕ) : Prop :=
  ((c.igmpType = IGMP_V1_MEMBERSHIP_REPORT ∨ c.igmpType = IGMP_V2_MEMBERSHIP_REPORT) ∧
    c.reportLearned source (mfd c.igmpGroup) = true ∧
    c.FailsIn k (c.reportPorts source ((mfd c.igmpGroup).getD [])).length) ∨
    (c.igmpType = IGMP_LEAVE_GROUP ∧ c.cloneFails k = true)

def Br.Leaked (c : Br) (mfd : UInt32 → Option (List PNode)) (k : ℕ) : Prop :=
  ∃ plist, mfd c.daddr = some plist ∧ c.FailsIn k (plist.length-1)

lemma brDontForwardReport_owns (h : w.Owns S) (group : UInt32) (excludeIf : Option ℕ) :
    (brDontForwardReport group excludeIf w).Owns S := by
  have hlock := h.lock (.acquire .mfdHashLock .write)
  dsimp only [brDontForwardReport]
  split
  · exact World.Owns.lock (hlock.congr rfl rfl) _
  · exact World.Owns.lock (hlock.congr rfl rfl) _

lemma not_leaked_of_nil (hnil : ∀ plist, mfd c.daddr = some plist → plist = []) :
    ¬ c.Leaked mfd n := by
  rintro ⟨plist,hp,hf⟩
  rw [hnil plist hp] at hf
  exact not_failsIn_zero hf

lemma leaked_iff_of_cons {pnode : PNode} {rest : List PNode}
    (hm : mfd c.daddr = some (pnode :: rest)) :
    c.Leaked mfd n ↔ c.FailsIn n rest.length := by
  constructor
  · rintro ⟨plist,hp,hf⟩
    obtain rfl := Option.some.inj (hm.symm.trans hp)
    exact hf
  · exact fun hf => ⟨pnode :: rest,hm,hf⟩

section Owned
variable (h : w.Owns S) (hskb : skb ∈ S)
include h hskb

lemma World.Owns.use : (w.emit (.use skb)).Owns S :=
  .emit (Held.touch h hskb)

lemma World.Owns.consume (he : e.life = [.drop skb]) : (w.emit e).Owns (S \ {skb}) :=
  .emit (he ▸ Held.drop h hskb)

lemma World.Owns.cloned : (w.cloned skb).Owns (insert w.made S) := by
  have hheld := (Held.touch h hskb).born
  have hlife : (w.cloned skb).trace.flatMap Event.life =
      w.trace.flatMap Event.life ++ [.touch skb] ++ [.born w.made] := by
    simp [World.cloned,World.emit,flatMap_append,Event.life]
  rw [← hlife] at hheld
  exact hheld

lemma brSendFrame_owns (dst : ℕ) : (brSendFrame c dst skb w).Owns (S \ {skb}) := by
  have huse := h.use hskb
  dsimp only [brSendFrame]
  split
  · have hdev : ((w.emit (.use skb)).setDev skb (.port dst)).Owns S := huse.congr rfl rfl
    split
    · have hfilter := ((hdev.use hskb).lock (.acquire .hashLock .read)).lock
        (.release .hashLock .read)
      split
      · exact hfilter.consume hskb rfl
      · exact hfilter.consume hskb rfl
    · exact hdev.consume hskb rfl
  · exact huse.consume hskb rfl

lemma World.Owns.cloned_sent (dst : ℕ) : (brSendFrame c dst w.made (w.cloned skb)).Owns S := by
  have hsent := brSendFrame_owns (c := c) (h.cloned hskb) (Set.mem_insert _ _) dst
  rwa [h.insert_made_diff] at hsent

lemma skbClone_fails_owns :
    World.Owns { w.emit (.use skb) with calls := w.calls+1 } S := (h.use hskb).congr rfl rfl

lemma floodPorts_owns (ps : List ℕ) (prev : Option ℕ) :
    (floodPorts c skb ps prev w).Owns (S \ {skb}) := by
  induction ps generalizing prev w with
  | nil =>
    cases prev with
    | none => exact h.consume hskb rfl
    | some q => exact brSendFrame_owns h hskb q
  | cons p ps ih =>
    have huse := h.use hskb
    simp only [floodPorts]
    split
    · cases prev with
      | none => exact ih huse _
      | some q =>
        rcases hf : c.cloneFails (w.emit (.use skb)).calls with _ | _
        · simp only [skbClone_works hf]
          exact ih (huse.cloned_sent hskb q) _
        · simp only [skbClone_fails hf]
          exact (skbClone_fails_owns huse hskb).consume hskb rfl
    · exact ih huse _

lemma brFlood_owns : (brFlood c skb false w).Owns (S \ {skb}) := floodPorts_owns h hskb _ _

lemma brFlood_clone_owns :
    (brFlood c skb true w).Owns (if c.cloneFails w.calls = true then S \ {skb} else S) := by
  rcases hf : c.cloneFails w.calls with _ | _
  · rw [brFlood,if_pos rfl,skbClone_works hf,if_neg (by simp)]
    have hflood := floodPorts_owns (c := c) (h.cloned hskb) (Set.mem_insert _ _) c.portList
      none
    rwa [h.insert_made_diff] at hflood
  · rw [brFlood,if_pos rfl,skbClone_fails hf,if_pos rfl]
    exact (skbClone_fails_owns h hskb).consume hskb rfl

lemma brPassFrameUp_owns : (brPassFrameUp skb w).Owns (S \ {skb}) := by
  have hdev : ((w.emit (.use skb)).setDev skb .bridge).Owns S := (h.use hskb).congr rfl rfl
  exact hdev.consume hskb rfl

lemma selectivePorts_owns (plist : List PNode) {dev : Dev} {ps : List ℕ} (hdev : w.dev skb = dev)
    (hn : n = (ps.filter fun p => shouldDeliver c p dev && !suppressed plist p).length) :
    (c.FailsIn w.calls n → (selectivePorts c plist skb ps w).Owns (S \ {skb})) ∧
    (¬ c.FailsIn w.calls n → (selectivePorts c plist skb ps w).Owns S) := by
  induction ps generalizing w n with
  | nil =>
    subst hn
    exact ⟨fun hf => absurd hf not_failsIn_zero,fun _ => h⟩
  | cons p ps ih =>
    have huse := h.use hskb
    have hdev' : (w.emit (.use skb)).dev skb = dev := hdev
    simp only [selectivePorts,hdev']
    by_cases hp : (shouldDeliver c p dev && !suppressed plist p) = true
    · rw [filter_cons,if_pos hp,length_cons] at hn
      subst hn
      rw [if_pos hp,failsIn_succ]
      rcases hf : c.cloneFails w.calls with _ | _
      · have hne : skb ≠ (w.emit (.use skb)).made := by
          obtain ⟨s,-,hown⟩ := h
          exact ne_of_lt (hown.lt hskb)
        have hsent := huse.cloned_sent (c := c) hskb p
        have hdev2 : (brSendFrame c p (w.emit (.use skb)).made
            ((w.emit (.use skb)).cloned skb)).dev skb = dev := by
          rw [brSendFrame_dev p hne]
          exact (update_of_ne hne _ _).trans hdev
        have hrest := ih hsent hdev2 rfl
        rw [brSendFrame_calls] at hrest
        simp only [skbClone_works (w := w.emit (.use skb)) hf,Bool.false_eq_true,false_or]
        exact hrest
      · simp only [skbClone_fails (w := w.emit (.use skb)) hf,true_or,not_true_eq_false,
          false_imp_iff,and_true,true_imp_iff]
        exact (skbClone_fails_owns huse hskb).consume hskb rfl
    · rw [filter_cons,if_neg hp] at hn
      rw [if_neg hp]
      exact ih huse hdev' hn

lemma dataPorts_owns (pnode : PNode) (rest : List PNode) :
    (c.FailsIn w.calls rest.length → (dataPorts c skb pnode rest w).2.Owns S) ∧
    (¬ c.FailsIn w.calls rest.length → (dataPorts c skb pnode rest w).2.Owns (S \ {skb})) := by
  induction rest generalizing w pnode with
  | nil => exact ⟨fun hf => absurd hf not_failsIn_zero,fun _ => brSendFrame_owns h hskb _⟩
  | cons next rest ih =>
    rw [length_cons,failsIn_succ,dataPorts]
    rcases hf : c.cloneFails w.calls with _ | _
    · have hrest := ih (h.cloned_sent (c := c) hskb pnode.dst) next
      rw [brSendFrame_calls] at hrest
      simp only [skbClone_works hf,Bool.false_eq_true,false_or]
      exact hrest
    · simp only [skbClone_fails hf,true_or,not_true_eq_false,false_imp_iff,and_true,true_imp_iff]
      exact skbClone_fails_owns h hskb

lemma mfdInsertPort_owns (plist : List PNode)
    (hdev : w.dev skb = .port source) :
    let r := mfdInsertPort c plist source skb w
    let fails := (plist.any (·.dst = source) || c.allocPort) = true ∧
      c.FailsIn w.calls (c.reportPorts source plist).length
    (fails → r.2.Owns (S \ {skb})) ∧ (¬ fails → r.2.Owns S) := by
  intro r fails
  by_cases hany : plist.any (·.dst = source) = true
  · have hflood := selectivePorts_owns (c := c) h hskb (resetReport source plist) hdev
      (n := (c.reportPorts source plist).length) (congrArg length
        (reportPorts_congr fun p hp => suppressed_resetReport hp plist).symm)
    simp only [r,fails,mfdInsertPort,hany,Bool.true_or,true_and,if_true]
    exact hflood
  cases halloc : c.allocPort with
  | true =>
    have hflood := selectivePorts_owns (c := c) h hskb (⟨source,false⟩ :: plist) hdev
      (n := (c.reportPorts source plist).length) (congrArg length
        (reportPorts_congr fun p hp => suppressed_cons hp plist).symm)
    simp only [r,fails,mfdInsertPort,hany,halloc,Bool.or_true,true_and,if_true]
    exact hflood
  | false =>
    simp only [r,fails,mfdInsertPort,hany,halloc,Bool.or_self,Bool.false_eq_true,
      false_and,false_imp_iff,not_false_eq_true,true_and,if_false]
    exact fun _ => h

lemma brMfdInsert_owns (addr : UInt32)
    (hdev : w.dev skb = .port source) :
    let fails := c.reportLearned source (w.mfd addr) = true ∧
      c.FailsIn w.calls (c.reportPorts source ((w.mfd addr).getD [])).length
    (fails → (brMfdInsert c source addr skb w).Owns (S \ {skb})) ∧
      (¬ fails → (brMfdInsert c source addr skb w).Owns S) := by
  intro fails
  have hlock := h.lock (.acquire .mfdHashLock .write)
  have hwrap : ∀ (r : List PNode × World) (T : Set ℕ), r.2.Owns T →
      ({ r.2 with mfd := update r.2.mfd addr (some r.1) }.release .mfdHashLock
        .write).Owns T := fun r T hr =>
    World.Owns.lock (hr.congr rfl rfl) _
  rcases hm : w.mfd addr with _ | plist
  · have hm' : (w.acquire .mfdHashLock .write).mfd addr = none := hm
    cases hentry : c.allocEntry with
    | true =>
      obtain ⟨h1,h2⟩ := mfdInsertPort_owns (c := c) hlock hskb [] hdev
      simp only [brMfdInsert,hm',hentry,if_true,fails,hm,Br.reportLearned,Bool.true_and,
        Option.getD_none]
      exact ⟨fun hf => hwrap _ _ (h1 hf),fun hf => hwrap _ _ (h2 hf)⟩
    | false =>
      simp only [brMfdInsert,hm',hentry,Bool.false_eq_true,if_false,fails,hm,
        Br.reportLearned,Bool.false_and,false_and,false_imp_iff,not_false_eq_true,true_and]
      exact fun _ => hlock.lock _
  · have hm' : (w.acquire .mfdHashLock .write).mfd addr = some plist := hm
    obtain ⟨h1,h2⟩ := mfdInsertPort_owns (c := c) hlock hskb plist hdev
    simp only [brMfdInsert,hm',fails,hm,Br.reportLearned,Option.getD_some]
    exact ⟨fun hf => hwrap _ _ (h1 hf),fun hf => hwrap _ _ (h2 hf)⟩

lemma igmpSwitch_forward_owns : (igmpSwitch none c skb .forward w).Owns (S \ {skb}) := by
  dsimp only [igmpSwitch]
  split
  · exact brFlood_owns h hskb
  · split
    · exact brFlood_owns (brDontForwardReport_owns h _ _) hskb
    · exact brFlood_owns h hskb

lemma brMcLearnAndFlood_owns
    (hdev : w.dev skb = .port source)
    (htype : c.igmpType = IGMP_V1_MEMBERSHIP_REPORT ∨ c.igmpType = IGMP_V2_MEMBERSHIP_REPORT ∨
      c.igmpType = IGMP_LEAVE_GROUP) :
    let r := brMcLearnAndFlood none c source c.igmpType c.igmpGroup skb w
    (c.FreedTwice source w.mfd w.calls → r.Owns (S \ {skb})) ∧
      (¬ c.FreedTwice source w.mfd w.calls → r.Owns S) := by
  intro r
  by_cases hreport : c.igmpType = IGMP_V1_MEMBERSHIP_REPORT ∨
    c.igmpType = IGMP_V2_MEMBERSHIP_REPORT
  · have hr : r = brMfdInsert c source c.igmpGroup skb w := by
      obtain ht | ht := hreport <;> simp [r,brMcLearnAndFlood,ht]
    have hleave : c.igmpType ≠ IGMP_LEAVE_GROUP := by
      obtain ht | ht := hreport <;> rw [ht] <;> decide
    rw [hr]
    simp only [Br.FreedTwice,hreport,hleave,true_and,false_and,or_false]
    exact brMfdInsert_owns h hskb c.igmpGroup hdev
  have ht : c.igmpType = IGMP_LEAVE_GROUP := by tauto
  have h1 : IGMP_LEAVE_GROUP ≠ IGMP_V1_MEMBERSHIP_REPORT := by decide
  have h2 : IGMP_LEAVE_GROUP ≠ IGMP_V2_MEMBERSHIP_REPORT := by decide
  have hlocks : (brLeaveReportReceived none c source c.igmpGroup w).Owns S := by
    dsimp only [brLeaveReportReceived]
    split <;> exact (h.lock _).lock _
  have hcalls : (brLeaveReportReceived none c source c.igmpGroup w).calls = w.calls := by
    dsimp only [brLeaveReportReceived]
    split <;> rfl
  have hr : r = brFlood c skb true (brLeaveReportReceived none c source c.igmpGroup w) := by
    simp only [r,brMcLearnAndFlood,ht,h1,h2,if_false,if_true]
  have hflood := brFlood_clone_owns (c := c) hlocks hskb
  rw [hcalls] at hflood
  rw [hr]
  simp only [Br.FreedTwice,ht,h1,h2,or_self,false_and,true_and,false_or]
  constructor
  · intro hf
    rwa [if_pos hf] at hflood
  · intro hf
    rwa [if_neg hf] at hflood

lemma igmpSwitch_input_owns (source : ℕ)
    (hdev : w.dev skb = .port source) :
    (c.FreedTwice source w.mfd w.calls → (igmpSwitch none c skb (.input source) w).life = none) ∧
      (¬ c.FreedTwice source w.mfd w.calls →
        (igmpSwitch none c skb (.input source) w).Owns (S \ {skb})) := by
  by_cases htype : c.igmpType = IGMP_V1_MEMBERSHIP_REPORT ∨
    c.igmpType = IGMP_V2_MEMBERSHIP_REPORT ∨ c.igmpType = IGMP_LEAVE_GROUP
  · obtain ⟨h1,h2⟩ := brMcLearnAndFlood_owns h hskb hdev htype
    simp only [igmpSwitch,htype,if_true]
    exact ⟨fun hf => (h1 hf).twice (by simp) rfl,fun hf => (h2 hf).consume hskb rfl⟩
  have hnot : ¬ c.FreedTwice source w.mfd w.calls := by
    rintro (⟨ht | ht,-⟩ | ⟨ht,-⟩) <;> exact htype (by simp [ht])
  refine ⟨fun hf => absurd hf hnot,fun _ => ?_⟩
  simp only [igmpSwitch,htype,if_false]
  split
  · exact brFlood_owns (brDontForwardReport_owns h _ _) hskb
  · exact brFlood_owns h hskb

lemma brHandleMc_nobody_owns (mode : Mode) (hip : c.isIp = true)
    (higmp : c.isIgmp = false) (hnil : ∀ plist, w.mfd c.daddr = some plist → plist = []) :
    (brHandleMc none c skb mode w).2.Owns (S \ {skb}) := by
  have hlock := ((h.use hskb).lock (.acquire .mfdHashLock .read)).lock
    (.release .mfdHashLock .read)
  have hmfd : (w.emit (.use skb)).mfd = w.mfd := rfl
  rcases hm : w.mfd c.daddr with _ | plist
  on_goal 2 => obtain rfl := hnil plist hm
  all_goals
    simp only [brHandleMc,hip,higmp,if_true,Bool.false_eq_true,if_false,brMfdGet,hmfd,hm]
    split
    · exact brFlood_owns hlock hskb
    · exact hlock.consume hskb rfl

lemma brHandleMc_data_owns (mode : Mode) (hip : c.isIp = true)
    (higmp : c.isIgmp = false) :
    (c.Leaked w.mfd w.calls → (brHandleMc none c skb mode w).2.Owns S) ∧
      (¬ c.Leaked w.mfd w.calls → (brHandleMc none c skb mode w).2.Owns (S \ {skb})) := by
  by_cases hnil : ∀ plist, w.mfd c.daddr = some plist → plist = []
  · exact ⟨fun hleak => absurd hleak (not_leaked_of_nil hnil),
      fun _ => brHandleMc_nobody_owns h hskb mode hip higmp hnil⟩
  obtain ⟨plist,hm,hne⟩ : ∃ plist, w.mfd c.daddr = some plist ∧ plist ≠ [] := by
    simpa using hnil
  obtain ⟨pnode,rest,rfl⟩ := exists_cons_of_ne_nil hne
  have hlock := ((h.use hskb).lock (.acquire .mfdHashLock .read)).lock
    (.release .mfdHashLock .read)
  have hmfd : (w.emit (.use skb)).mfd = w.mfd := rfl
  rw [leaked_iff_of_cons hm]
  simp only [brHandleMc,hip,higmp,if_true,Bool.false_eq_true,if_false,brMfdGet,hmfd,hm]
  exact dataPorts_owns hlock hskb pnode rest

lemma brHandleMc_other_owns (mode : Mode)
    (hip : c.isIp = false) : (brHandleMc none c skb mode w).2.Owns (S \ {skb}) := by
  simp only [brHandleMc,hip,Bool.false_eq_true,if_false]
  exact brFlood_owns (h.use hskb) hskb

end Owned

lemma brHandleMc_igmp (mode : Mode) (hip : c.isIp = true) (higmp : c.isIgmp = true) :
    (brHandleMc none c skb mode w).2 = igmpSwitch none c skb mode (w.emit (.use skb)) := by
  simp only [brHandleMc,hip,higmp,if_true,querierElection]

/-- A frame from `source` that is not handled linearly. It passes the first checks and is
a group frame. Where it is flooded, the clone for the ports fails; where it is IP
multicast, the first clone works and a later one fails. -/
def Br.InputFault (c : Br) (source : ℕ) (mfd : UInt32 → Option (List PNode)) : Prop :=
  c.data 6 &&& 1 = 0 ∧ c.forwarding source = true ∧ c.group = true ∧
    ((c.multicast = false ∧ c.cloneFails 0 = true) ∨
      (c.multicast = true ∧ c.cloneFails 0 = false ∧ c.isIp = true ∧
        ((c.isIgmp = true ∧ c.FreedTwice source mfd 1) ∨ (c.isIgmp = false ∧ c.Leaked mfd 1))))

def Br.XmitFault (c : Br) (mfd : UInt32 → Option (List PNode)) : Prop :=
  c.group = true ∧ c.multicast = true ∧ c.isIp = true ∧ c.isIgmp = false ∧ c.Leaked mfd 0

lemma not_toNat_lt_zero (r : UInt8) : ¬ (r.toNat : ℤ) < 0 := by omega

lemma diff_pair (n : ℕ) (hn : n ≠ 0) : (insert n {0} \ {n} : Set ℕ) = {0} := by grind

lemma linear_passFrameUp (h : w.Owns {0}) : Linear (brPassFrameUp 0 w) :=
  (brPassFrameUp_owns h (Set.mem_singleton 0)).linear

lemma handleGroupFrame_flood_linear_iff (h : w.Owns {0}) (hcalls : w.calls = 0)
    (hm : c.multicast = false) :
    Linear (handleGroupFrame none c source 0 w) ↔ c.cloneFails 0 = false := by
  have hflood := brFlood_clone_owns (c := c) h (Set.mem_singleton 0)
  rw [hcalls] at hflood
  simp only [handleGroupFrame,hm,Bool.false_eq_true,if_false]
  cases hf : c.cloneFails 0 with
  | false =>
    rw [hf,if_neg (by simp)] at hflood
    simp [linear_passFrameUp hflood]
  | true =>
    rw [hf,if_pos rfl] at hflood
    have htouch : ((brFlood c 0 true w).emit (.use 0)).life = none := by
      obtain ⟨s,hs,hown⟩ := hflood
      have hgone : (0 : ℕ) ∉ ({0} \ {0} : Set ℕ) := fun hmem => hmem.2 rfl
      simp [World.life_emit,hs,Event.life,run,hown.touch_none hgone]
    have hnone : (brPassFrameUp 0 (brFlood c 0 true w)).life = none :=
      World.life_emit_none (w := ((brFlood c 0 true w).emit (.use 0)).setDev 0 .bridge) htouch _
    simp [not_linear_of_life hnone]

section

variable (h : w.Owns {0}) (hcalls : w.calls = 0) (hdev : w.dev 0 = .port source)
include h hcalls hdev

lemma handleGroupFrame_mc_linear_iff (hm : c.multicast = true) (hf : c.cloneFails 0 = false) :
    Linear (handleGroupFrame none c source 0 w) ↔
      ¬ (c.isIp = true ∧ ((c.isIgmp = true ∧ c.FreedTwice source w.mfd 1) ∨
        (c.isIgmp = false ∧ c.Leaked w.mfd 1))) := by
  have h0 : (0 : ℕ) ∈ ({0} : Set ℕ) := rfl
  have hf' : c.cloneFails w.calls = false := by rw [hcalls,hf]
  have hclone := h.cloned h0
  have hmem : w.made ∈ (insert w.made {0} : Set ℕ) := Set.mem_insert _ _
  have hne : w.made ≠ 0 := by
    obtain ⟨s,-,hown⟩ := h
    exact ne_of_gt (hown.lt h0)
  have hcalls' : (w.cloned 0).calls = 1 := congrArg (·+1) hcalls
  have hdev' : (w.cloned 0).dev w.made = .port source :=
    (update_self ..).trans hdev
  have hdiff := diff_pair w.made hne
  have hgood : (brHandleMc none c w.made (.input source) (w.cloned 0)).2.Owns
      (insert w.made {0} \ {w.made}) → Linear (brPassFrameUp 0
        (brHandleMc none c w.made (.input source) (w.cloned 0)).2) := fun hown =>
    linear_passFrameUp (hdiff ▸ hown)
  simp only [handleGroupFrame,hm,if_true,skbClone_works hf',not_toNat_lt_zero,if_false]
  cases hip : c.isIp with
  | false =>
    simp only [Bool.false_eq_true,false_and,not_false_eq_true,iff_true]
    exact hgood (brHandleMc_other_owns hclone hmem _ hip)
  | true =>
    cases higmp : c.isIgmp with
    | true =>
      obtain ⟨h1,h2⟩ := igmpSwitch_input_owns (c := c) (hclone.use hmem) hmem source hdev'
      rw [← brHandleMc_igmp _ hip higmp] at h1 h2
      simp only [true_and,Bool.true_eq_false,false_and,or_false]
      by_cases htwice : c.FreedTwice source w.mfd 1
      · have hnone := h1 (hcalls'.symm ▸ htwice)
        simp [htwice,not_linear_of_life (brPassFrameUp_life_none hnone)]
      · simp only [htwice,not_false_eq_true,iff_true]
        exact hgood (h2 (hcalls'.symm ▸ htwice))
    | false =>
      obtain ⟨h1,h2⟩ := brHandleMc_data_owns hclone hmem (.input source) hip higmp
      simp only [true_and,Bool.false_eq_true,false_and,false_or]
      by_cases hleak : c.Leaked w.mfd 1
      · have hown := brPassFrameUp_owns (h1 (hcalls'.symm ▸ hleak)) (Set.mem_insert_of_mem _ h0)
        simp only [hleak,not_true_eq_false,iff_false,hown.linear_iff_empty]
        intro he
        have : w.made ∈ (insert w.made {0} \ {0} : Set ℕ) := ⟨hmem,hne⟩
        rw [he] at this
        exact this
      · simp only [hleak,not_false_eq_true,iff_true]
        exact hgood (h2 (hcalls'.symm ▸ hleak))

lemma handleGroupFrame_linear_iff :
    Linear (handleGroupFrame none c source 0 w) ↔
      ¬ ((c.multicast = false ∧ c.cloneFails 0 = true) ∨
        (c.multicast = true ∧ c.cloneFails 0 = false ∧ c.isIp = true ∧
          ((c.isIgmp = true ∧ c.FreedTwice source w.mfd 1) ∨
            (c.isIgmp = false ∧ c.Leaked w.mfd 1)))) := by
  cases hm : c.multicast with
  | false =>
    rw [handleGroupFrame_flood_linear_iff h hcalls hm]
    simp
  | true =>
    cases hf : c.cloneFails 0 with
    | true =>
      have hf' : c.cloneFails w.calls = true := by rw [hcalls,hf]
      simp only [handleGroupFrame,hm,if_true,skbClone_fails hf',Bool.true_eq_false,false_and,
        and_false,or_self,not_false_eq_true,iff_true]
      exact ((skbClone_fails_owns h rfl).consume rfl rfl).linear
    | false =>
      rw [handleGroupFrame_mc_linear_iff h hcalls hdev hm hf]
      simp

lemma handleFrame_linear_iff :
    Linear (handleFrame none c source 0 w) ↔ ¬ c.InputFault source w.mfd := by
  have h0 : (0 : ℕ) ∈ ({0} : Set ℕ) := rfl
  have huse := h.use h0
  have hlearn : ∀ w' : World, w'.Owns {0} → (brFdbInsert w').Owns {0} := fun w' hw' =>
    (hw'.lock _).lock _
  by_cases hsource : c.data 6 &&& 1 = 0
  · simp only [handleFrame,hsource,ne_eq,not_true_eq_false,if_false,Br.InputFault,true_and]
    generalize hw : (if ¬ c.state source &&& (BR_STATE_LEARNING ||| BR_STATE_FORWARDING) = 0 then
      brFdbInsert (w.emit (.use 0)) else w.emit (.use 0)) = w1
    have hown : w1.Owns {0} := by
      rw [← hw]
      split
      · exact hlearn _ huse
      · exact huse
    have hsame : w1.calls = 0 ∧ w1.dev 0 = .port source ∧ w1.mfd = w.mfd := by
      rw [← hw]
      split <;> exact ⟨hcalls,hdev,rfl⟩
    cases hfwd : c.forwarding source with
    | false =>
      simp only [Bool.false_eq_true,if_false,false_and,not_false_eq_true,iff_true]
      exact (hown.consume h0 rfl).linear
    | true =>
      simp only [if_true,true_and]
      cases hgroup : c.group with
      | true =>
        simp only [if_true,true_and]
        rw [handleGroupFrame_linear_iff hown hsame.1 hsame.2.1,hsame.2.2]
      | false =>
        have hget : (brFdbGet w1).Owns {0} := (hown.lock _).lock _
        simp only [Bool.false_eq_true,if_false,false_and,not_false_eq_true,iff_true]
        cases c.fdb with
        | none => exact (brFlood_owns hget h0).linear
        | some hit =>
          cases hlocal : hit.isLocal with
          | true => simpa [hlocal] using (brPassFrameUp_owns hget h0).linear
          | false => simpa [hlocal] using (brSendFrame_owns hget h0 hit.dst).linear
  · simp only [handleFrame,ne_eq,hsource,not_false_eq_true,if_true,Br.InputFault,false_and,iff_true]
    exact (huse.consume h0 rfl).linear

end

lemma linear_lock_iff (ev : LockEv Lock) : Linear (w.emit (.lock ev)) ↔ Linear w := by
  have : (w.emit (.lock ev)).life = w.life := by
    rw [World.life_emit]
    exact Option.bind_fun_some w.life
  rw [Linear,Linear,this]

lemma brDevXmit_linear_iff (h : w.Owns {0}) (hcalls : w.calls = 0) :
    Linear (brDevXmit none c 0 w) ↔ ¬ c.XmitFault w.mfd := by
  have h0 : (0 : ℕ) ∈ ({0} : Set ℕ) := rfl
  have huse := (h.lock (.acquire .lock .read)).use h0
  cases hgroup : c.group with
  | false =>
    have hget := (huse.lock (.acquire .hashLock .read)).lock (.release .hashLock .read)
    simp only [brDevXmit,hgroup,Bool.false_eq_true,if_false,Br.XmitFault,false_and,
      not_false_eq_true,iff_true]
    refine (linear_lock_iff _).mpr ?_
    cases c.fdb with
    | none => exact (brFlood_owns hget h0).linear
    | some hit => exact (brSendFrame_owns hget h0 hit.dst).linear
  | true =>
    cases hm : c.multicast with
    | false =>
      simp only [brDevXmit,hgroup,hm,if_true,Bool.false_eq_true,if_false,Br.XmitFault,
        false_and,and_false,not_false_eq_true,iff_true]
      exact (brFlood_owns huse h0).linear
    | true =>
      simp only [brDevXmit,hgroup,hm,if_true,not_toNat_lt_zero,if_false,Br.XmitFault,true_and]
      cases hip : c.isIp with
      | false =>
        simp only [Bool.false_eq_true,false_and,not_false_eq_true,iff_true]
        exact (brHandleMc_other_owns huse h0 _ hip).linear
      | true =>
        cases higmp : c.isIgmp with
        | true =>
          simp only [Bool.true_eq_false,false_and,and_false,not_false_eq_true,iff_true]
          rw [brHandleMc_igmp _ hip higmp]
          exact (igmpSwitch_forward_owns (huse.use h0) h0).linear
        | false =>
          obtain ⟨h1,h2⟩ := brHandleMc_data_owns huse h0 .forward hip higmp
          simp only [true_and]
          by_cases hleak : c.Leaked w.mfd 0
          · have hown := (h1 (hcalls.symm ▸ hleak)).linear_iff_empty
            simp only [hleak,not_true_eq_false,iff_false]
            exact fun hlin => Set.singleton_ne_empty 0 (hown.mp hlin)
          · simp only [hleak,not_false_eq_true,iff_true]
            exact (h2 (hcalls.symm ▸ hleak)).linear

/-- Every frame, on every bridge and with every pattern of failing clones: the frame and
its clones are consumed exactly once, except in the cases `Br.InputFault` and
`Br.XmitFault` name. -/
theorem linear_iff (c : Br) (source : ℕ) (mfd : UInt32 → Option (List PNode))
    (isQuerier : Querier) :
    (Linear (brHandleFrame none c source 0 (World.start (.port source) mfd isQuerier)) ↔
      ¬ c.InputFault source mfd) ∧
    (Linear (brDevXmit none c 0 (World.start .bridge mfd isQuerier)) ↔ ¬ c.XmitFault mfd) := by
  have hin := owns_start (.port source) mfd isQuerier
  refine ⟨(linear_lock_iff _).trans ?_,?_⟩
  · exact handleFrame_linear_iff (hin.lock (.acquire .lock .read)) rfl rfl
  · exact brDevXmit_linear_iff (owns_start .bridge mfd isQuerier) rfl

/-- A broadcast while there is no memory for a clone: `br_flood` frees the frame, and
`br_pass_frame_up` hands it to the stack all the same. -/
theorem linear_fails_broadcast :
    ¬ Linear (brHandleFrame none
      { portList := [1,2], state := fun _ => BR_STATE_FORWARDING, brFilterActive := false,
        filterFrame := fun _ => false, mcForwarding := true, fdb := none,
        data := fun i => if i < 6 then 0xff else 0, cloneFails := fun _ => true,
        allocEntry := true, allocPort := true } 1 0
      (World.start (.port 1) (fun _ => none) .notApplicable)) := by
  refine not_linear_of_life ?_
  decide +kernel

end DslG624t.Bridge.Forward
