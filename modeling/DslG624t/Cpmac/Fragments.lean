import Mathlib

/-!
# Receiving packets of several fragments

`CpmacRxBDProc` and `cpmacAddBDToRxQueue` of `ddc_cpmacTxRx.c` as the `CPMAC_MULTIFRAGMENT` build
compiles them.
-/

namespace DslG624t.Cpmac.Fragments

open Function List

/-- A receive buffer, by its address and the token the stack knows it by. -/
structure RxBuf where
  dataPtr : ℕ
  bufToken : ℕ
  deriving DecidableEq

/-- The bits of `mode` that receive processing reads. -/
structure RxMode where
  ownership : Bool
  eop : Bool
  eoq : Bool
  pktLength : ℕ
  deriving DecidableEq

/-- `CpmacRxBD`. The `next` links are the order of the queue the descriptor is in. -/
structure RxBD where
  id : ℕ
  hNext : Option ℕ
  offBLen : ℕ
  mode : RxMode
  buf : RxBuf
  deriving DecidableEq

/-- `DDC_NetPktObj` with its buffer list. -/
structure NetPkt where
  bufList : List (RxBuf × ℕ)
  pktToken : ℕ
  numBufs : ℕ
  pktLength : ℕ

/-- The channel, the registers it writes, and what it has given away: packets to the
stack and buffers to `ddaNetFreeRxBufCb`. `allocs` counts the allocation calls. -/
structure RxCppiCh where
  bufSize : ℕ
  queue : List RxBD
  queueActive : Bool
  rxHDP : Option ℕ
  rxCP : Option ℕ
  rxBuffer : ℕ → RxBuf
  allocs : ℕ
  up : List NetPkt
  freed : List RxBuf

def CPMAC_MAX_RX_FRAGMENTS : ℕ := 24

def mapLast {α : Type} (f : α → α) : List α → List α
  | [] => []
  | [a] => [f a]
  | a :: b :: l => a :: mapLast f (b :: l)

def populate (bufSize : ℕ) (buffer : ℕ → RxBuf) (bds : List RxBD) : List RxBD :=
  mapLast (fun bd => { bd with hNext := none }) <|
    bds.zipIdx.map fun p =>
      { p.1 with offBLen := bufSize, mode := ⟨true,false,false,0⟩, buf := buffer p.2 }

/-- `cpmacAddBDToRxQueue`, with `s.queue` the descriptors still queued. -/
def cpmacAddBDToRxQueue (s : RxCppiCh) (bds : List RxBD) (buffer : ℕ → RxBuf) : RxCppiCh :=
  let bds := populate s.bufSize buffer bds
  let sop := bds.head?.map (·.id)
  match s.queue.getLast? with
  | none =>
    let s := { s with queue := bds }
    if s.queueActive ≠ false then { s with rxHDP := sop, queueActive := true } else s
  | some tail =>
    let link (bd : RxBD) : RxBD := { bd with hNext := sop }
    if tail.mode.eoq then
      let unmark (bd : RxBD) : RxBD := { bd with mode := { bd.mode with eoq := false } }
      { s with rxHDP := sop, queue := mapLast (unmark ∘ link) s.queue ++ bds }
    else { s with queue := mapLast link s.queue ++ bds }

/-- The `do … while` that collects a packet: up to the end-of-packet bit or the queue's end. -/
def gather : List RxBD → List RxBD × List RxBD
  | [] => ([],[])
  | [bd] => ([bd],[])
  | bd :: bd' :: l =>
    if bd.mode.eop then ([bd], bd' :: l)
    else (bd :: (gather (bd' :: l)).1, (gather (bd' :: l)).2)

structure Alloc where
  buffer : ℕ → RxBuf
  freed : List RxBuf
  recyclePkt : Bool

def rollbackStep (cnt : ℕ) (a : Alloc) (p : RxBuf × ℕ) : Alloc :=
  let a := if p.2 < cnt then { a with freed := a.freed ++ [a.buffer p.2] } else a
  { a with buffer := update a.buffer p.2 p.1 }

def allocStep (old : List RxBuf) (cnt : ℕ) (a : Alloc) : Option RxBuf → Alloc
  | some b => { a with buffer := update a.buffer cnt b }
  | none => { old.zipIdx.foldl (rollbackStep cnt) a with recyclePkt := true }

def allocLoop (old : List RxBuf) (outcome : ℕ → Option RxBuf) (c : ℕ) (a : Alloc) : Alloc :=
  (List.range c).foldl (fun a cnt => allocStep old cnt a (outcome cnt)) a

def packetOf (frags : List RxBD) : NetPkt where
  bufList := frags.map fun bd => (bd.buf,bd.offBLen % 2 ^ 16)
  pktToken := (frags.head?.map (·.buf.bufToken)).getD 0
  numBufs := frags.length
  pktLength := (frags.head?.map (·.mode.pktLength)).getD 0

def checkEoq (s : RxCppiCh) (last : Option RxBD) : RxCppiCh :=
  match last with
  | none => s
  | some bd =>
    let s := { s with rxCP := some bd.id }
    if bd.mode.eoq then
      if s.queue ≠ [] then { s with rxHDP := bd.hNext } else { s with queueActive := false }
    else s

/-- One turn of the packet loop. The fragment arrays are not checked against
`fragCount`: a longer packet writes past them, and nothing can be said of the rest. -/
def rxPacket (alloc : ℕ → Option RxBuf) (s : RxCppiCh) : Option RxCppiCh :=
  let frags := (gather s.queue).1
  let rest := (gather s.queue).2
  if frags.length > CPMAC_MAX_RX_FRAGMENTS then none
  else
    let a := allocLoop (frags.map (·.buf)) (fun i => alloc (s.allocs+i)) frags.length
      ⟨s.rxBuffer,s.freed,false⟩
    let s := { s with
      queue := rest
      rxBuffer := a.buffer
      freed := a.freed
      allocs := s.allocs+frags.length
      up := if a.recyclePkt then s.up else s.up ++ [packetOf frags] }
    some (cpmacAddBDToRxQueue (checkEoq s frags.getLast?) frags a.buffer)

variable {alloc : ℕ → Option RxBuf} {s s' : RxCppiCh} {i : ℕ}

lemma gather_append (q : List RxBD) : (gather q).1 ++ (gather q).2 = q := by
  fun_induction gather q with
  | case1 => rfl
  | case2 bd => rfl
  | case3 bd bd' l h => rfl
  | case4 bd bd' l h ih => exact congrArg (bd :: ·) ih

lemma gather_length_pos {q : List RxBD} (hq : q ≠ []) : 0 < (gather q).1.length := by
  fun_cases gather q with
  | case1 => exact absurd rfl hq
  | case2 bd => simp
  | case3 bd bd' l h => simp
  | case4 bd bd' l h => simp

lemma map_mapLast {α β : Type} {f : α → α} {g : α → β} (h : ∀ a, g (f a) = g a) (l : List α) :
    (mapLast f l).map g = l.map g := by
  fun_induction mapLast f l with
  | case1 => rfl
  | case2 a => simp [h]
  | case3 a b l ih => simpa using ih

def RxBD.holds (bd : RxBD) : ℕ × RxBuf := (bd.id,bd.buf)

lemma holds_populate (n : ℕ) (buffer : ℕ → RxBuf) (bds : List RxBD) :
    (populate n buffer bds).map RxBD.holds = bds.zipIdx.map fun p => (p.1.id,buffer p.2) := by
  unfold populate
  rw [map_mapLast,map_map]
  · rfl
  · intro bd
    rfl

lemma cpmacAddBDToRxQueue_spec (s : RxCppiCh) (bds : List RxBD) (buffer : ℕ → RxBuf) :
    (cpmacAddBDToRxQueue s bds buffer).queue.map RxBD.holds =
      s.queue.map RxBD.holds ++ bds.zipIdx.map (fun p => (p.1.id,buffer p.2)) ∧
      (cpmacAddBDToRxQueue s bds buffer).up = s.up ∧
      (cpmacAddBDToRxQueue s bds buffer).freed = s.freed ∧
      (cpmacAddBDToRxQueue s bds buffer).allocs = s.allocs := by
  unfold cpmacAddBDToRxQueue
  cases hq : s.queue.getLast? with
  | none =>
    have hnil : s.queue = [] := getLast?_eq_none_iff.mp hq
    dsimp only
    split <;> refine ⟨?_,rfl,rfl,rfl⟩ <;> simp [hnil,holds_populate]
  | some tail =>
    dsimp only
    split <;> refine ⟨?_,rfl,rfl,rfl⟩ <;> rw [map_append,holds_populate,map_mapLast] <;>
      exact fun _ => rfl

lemma checkEoq_spec (s : RxCppiCh) (last : Option RxBD) :
    (checkEoq s last).queue = s.queue ∧ (checkEoq s last).up = s.up ∧
      (checkEoq s last).freed = s.freed ∧ (checkEoq s last).allocs = s.allocs := by
  unfold checkEoq
  cases last with
  | none => exact ⟨rfl,rfl,rfl,rfl⟩
  | some bd =>
    dsimp only
    split
    · split <;> exact ⟨rfl,rfl,rfl,rfl⟩
    · exact ⟨rfl,rfl,rfl,rfl⟩

lemma rollback_buffer (cnt m : ℕ) (l : List RxBuf) (a : Alloc) (j : ℕ) :
    ((l.zipIdx m).foldl (rollbackStep cnt) a).buffer j =
      if m ≤ j then (l[j-m]?).getD (a.buffer j) else a.buffer j := by
  induction l generalizing m a with
  | nil => simp
  | cons b l ih =>
    rw [zipIdx_cons,foldl_cons,ih]
    have hstep : (rollbackStep cnt a (b,m)).buffer = update a.buffer m b := by
      unfold rollbackStep
      dsimp only
      split <;> rfl
    rw [hstep]
    obtain hlt | rfl | hgt := lt_trichotomy j m
    · rw [if_neg (by omega),if_neg (by omega),update_of_ne (by omega)]
    · rw [if_neg (by omega)]
      simp
    · have hj : j-m = (j-(m+1))+1 := by omega
      rw [if_pos (by omega),if_pos (by omega),update_of_ne (by omega),hj,
        getElem?_cons_succ]

lemma rollback_freed (cnt m : ℕ) (l : List RxBuf) (a : Alloc) :
    ((l.zipIdx m).foldl (rollbackStep cnt) a).freed =
      a.freed ++ ((List.range' m l.length).filter (· < cnt)).map a.buffer := by
  induction l generalizing m a with
  | nil => simp
  | cons b l ih =>
    rw [zipIdx_cons,foldl_cons,ih,length_cons,range'_succ]
    -- The slot just rewritten is not looked at again.
    have hmap : ((range' (m+1) l.length).filter (· < cnt)).map
        (update a.buffer m b) =
        ((range' (m+1) l.length).filter (· < cnt)).map a.buffer := by
      apply map_congr_left
      intro j hj
      have hm : m+1 ≤ j := (mem_range'_1.mp (mem_of_mem_filter hj)).1
      exact update_of_ne (by omega) _ _
    unfold rollbackStep
    dsimp only
    by_cases hc : m < cnt
    · simp [hc,hmap]
    · simp [hc,hmap]

section Loop

variable {old : List RxBuf} {outcome : ℕ → Option RxBuf} {a : Alloc} {c i : ℕ}

lemma allocLoop_succ (c : ℕ) :
    allocLoop old outcome (c+1) a = allocStep old c (allocLoop old outcome c a) (outcome c) := by
  simp [allocLoop,range_succ]

lemma allocStep_none {cnt : ℕ} (hc : cnt ≤ old.length) (a : Alloc) :
    (∀ j < old.length, old[j]? = some ((allocStep old cnt a none).buffer j)) ∧
      (allocStep old cnt a none).freed = a.freed ++ (List.range cnt).map a.buffer ∧
      (allocStep old cnt a none).recyclePkt = true := by
  refine ⟨fun j hj => ?_,?_,rfl⟩
  · have h := rollback_buffer cnt 0 old a j
    simp only [allocStep,h,Nat.zero_le,if_true,Nat.sub_zero]
    simp [List.getElem?_eq_getElem hj]
  have h := rollback_freed cnt 0 old a
  obtain ⟨d,hd⟩ := Nat.exists_eq_add_of_le hc
  have hfilter : (range' 0 old.length).filter (· < cnt) = range cnt := by
    rw [← range_eq_range',hd,range_add,filter_append]
    have h1 : (range cnt).filter (· < cnt) = range cnt :=
      filter_eq_self.mpr fun x hx => by simpa using hx
    have h2 : ((range d).map (cnt+·)).filter (· < cnt) = [] :=
      filter_eq_nil_iff.mpr fun x hx => by
        obtain ⟨y,-,rfl⟩ := mem_map.mp hx
        simp
    rw [h1,h2,append_nil]
  rw [hfilter] at h
  exact h

lemma allocLoop_of_some (h : ∀ i < c, (outcome i).isSome) :
    (allocLoop old outcome c a).freed = a.freed ∧
      (allocLoop old outcome c a).recyclePkt = a.recyclePkt ∧
      ∀ i < c, outcome i = some ((allocLoop old outcome c a).buffer i) := by
  induction c with
  | zero => exact ⟨rfl,rfl,by simp⟩
  | succ c ih =>
    obtain ⟨hf,hr,hb⟩ := ih fun i hi => h i (by omega)
    obtain ⟨b,hbc⟩ := Option.isSome_iff_exists.mp (h c (by omega))
    rw [allocLoop_succ,hbc]
    refine ⟨hf,hr,fun i hi => ?_⟩
    by_cases hic : i = c
    · subst hic
      simp [allocStep,hbc]
    · simp only [allocStep,update_of_ne hic]
      exact hb i (by omega)

lemma map_buffer_eq_filterMap {buffer : ℕ → RxBuf} (h : ∀ i < c, outcome i = some (buffer i)) :
    (List.range c).map buffer = (List.range c).filterMap outcome := by
  induction c with
  | zero => rfl
  | succ c ih =>
    rw [range_succ,map_append,filterMap_append,ih fun i hi => h i (by omega)]
    simp [h c (by omega)]

lemma allocLoop_first_none (hi : i < old.length) (hs : ∀ j < i, (outcome j).isSome)
    (hn : outcome i = none) :
    (∀ j < old.length, old[j]? = some ((allocLoop old outcome (i+1) a).buffer j)) ∧
      (allocLoop old outcome (i+1) a).freed =
        a.freed ++ (List.range i).filterMap outcome ∧
      (allocLoop old outcome (i+1) a).recyclePkt = true := by
  obtain ⟨hf,-,hb⟩ := @allocLoop_of_some old outcome a i hs
  obtain ⟨h1,h2,h3⟩ := allocStep_none (le_of_lt hi) (allocLoop old outcome i a)
  rw [allocLoop_succ,hn]
  exact ⟨h1,by rw [h2,hf,map_buffer_eq_filterMap hb],h3⟩

lemma allocLoop_past_none {o : RxBuf} (ho : old[0]? = some o) (hi : i+1 ≤ c)
    (hc : c ≤ old.length) (hs : ∀ j < i, (outcome j).isSome) (hn : outcome i = none) :
    ∃ F, (allocLoop old outcome c a).freed = a.freed ++ F ∧
      (allocLoop old outcome c a).buffer 0 = o ∧ (i+2 ≤ c →
        o ∈ F ∨ outcome (i+1) = some ((allocLoop old outcome c a).buffer (i+1))) := by
  induction c, hi using Nat.le_induction with
  | base =>
    obtain ⟨hb,hf,-⟩ := @allocLoop_first_none old outcome a i hc hs hn
    exact ⟨_,hf,(Option.some.inj (ho.symm.trans (hb 0 (by omega)))).symm,by omega⟩
  | succ c hic ih =>
    obtain ⟨F,hf,hb0,hF⟩ := ih (by omega)
    rw [allocLoop_succ]
    cases h1 : outcome c with
    | some b =>
      refine ⟨F,hf,?_,fun _ => ?_⟩
      · simp only [allocStep]
        rw [update_of_ne (by omega),hb0]
      by_cases heq : i+1 = c
      · exact .inr (by simp [allocStep,heq,h1])
      · simp only [allocStep]
        rw [update_of_ne heq]
        exact hF (by omega)
    | none =>
      obtain ⟨hb',hf',-⟩ := allocStep_none (show c ≤ old.length by omega)
        (allocLoop old outcome c a)
      refine ⟨_,by rw [hf',hf,append_assoc],?_,fun _ => .inl ?_⟩
      · exact (Option.some.inj (ho.symm.trans (hb' 0 (by omega)))).symm
      · exact mem_append_right _ (mem_map.mpr ⟨0,by simp; omega,hb0⟩)

end Loop

def attached (s : RxCppiCh) : List RxBuf := s.queue.map (·.buf)

def handedUp (s : RxCppiCh) : List RxBuf := s.up.flatMap fun p => p.bufList.map (·.1)

def owners (s : RxCppiCh) : List RxBuf := attached s ++ handedUp s ++ s.freed

section Packet

variable (alloc : ℕ → Option RxBuf) (s : RxCppiCh)

abbrev frags : List RxBD := (gather s.queue).1

def outcome (i : ℕ) : Option RxBuf := alloc (s.allocs+i)

def news : List RxBuf := (List.range (frags s).length).filterMap (outcome alloc s)

/-- How the packet at the head of `s` should leave the channel: no buffer with two owners
and none without; and either the packet goes up and its descriptors get the new buffers,
or it is dropped, its descriptors keep their own and the new ones are freed. -/
structure Settled (s' : RxCppiCh) : Prop where
  once : (owners s').Perm (owners s ++ news alloc s)
  accepted : (∀ i < (frags s).length, (outcome alloc s i).isSome) →
    s'.up = s.up ++ [packetOf (frags s)] ∧
    s'.queue.map RxBD.holds = (gather s.queue).2.map RxBD.holds ++
      ((frags s).map (·.id)).zip (news alloc s) ∧
    s'.freed = s.freed
  dropped : (∃ i < (frags s).length, outcome alloc s i = none) →
    s'.up = s.up ∧
    s'.queue.map RxBD.holds = ((gather s.queue).2 ++ frags s).map RxBD.holds ∧
    s'.freed.Perm (s.freed ++ news alloc s)

def packetAlloc : Alloc :=
  allocLoop ((frags s).map (·.buf)) (outcome alloc s) (frags s).length ⟨s.rxBuffer,s.freed,false⟩

def indicated : RxCppiCh :=
  { s with
    queue := (gather s.queue).2
    rxBuffer := (packetAlloc alloc s).buffer
    freed := (packetAlloc alloc s).freed
    allocs := s.allocs+(frags s).length
    up := if (packetAlloc alloc s).recyclePkt then s.up else s.up ++ [packetOf (frags s)] }

end Packet

lemma rxPacket_eq_none_iff :
    rxPacket alloc s = none ↔ CPMAC_MAX_RX_FRAGMENTS < (frags s).length := by
  unfold rxPacket
  dsimp only
  split
  · next h => exact ⟨fun _ => h,fun _ => rfl⟩
  · next h => exact ⟨fun hc => absurd hc (by simp),fun hc => absurd hc h⟩

lemma rxPacket_spec (h : rxPacket alloc s = some s') :
    s'.queue.map RxBD.holds = (gather s.queue).2.map RxBD.holds ++
      (frags s).zipIdx.map (fun p => (p.1.id,(packetAlloc alloc s).buffer p.2)) ∧
      s'.up = (if (packetAlloc alloc s).recyclePkt then s.up
        else s.up ++ [packetOf (frags s)]) ∧
      s'.freed = (packetAlloc alloc s).freed ∧ s'.allocs = s.allocs+(frags s).length := by
  unfold rxPacket at h
  dsimp only at h
  split at h
  · cases h
  cases h
  obtain ⟨hq,hu,hf,ha⟩ := cpmacAddBDToRxQueue_spec
    (checkEoq (indicated alloc s) (frags s).getLast?) (frags s) (packetAlloc alloc s).buffer
  obtain ⟨hq',hu',hf',ha'⟩ := checkEoq_spec (indicated alloc s) (frags s).getLast?
  rw [hq'] at hq
  exact ⟨hq,hu.trans hu',hf.trans hf',ha.trans ha'⟩

lemma zipIdx_holds_old {fs : List RxBD} {buffer : ℕ → RxBuf}
    (h : ∀ j < fs.length, (fs.map (·.buf))[j]? = some (buffer j)) :
    fs.zipIdx.map (fun p => (p.1.id,buffer p.2)) = fs.map RxBD.holds := by
  apply ext_getElem (by simp)
  intro i h1 h2
  have hi : i < fs.length := by simpa using h2
  have hb := h i hi
  rw [getElem?_map,getElem?_eq_getElem hi] at hb
  simp only [Option.map_some,Option.some.injEq] at hb
  simp [RxBD.holds,hb]

lemma zipIdx_holds_new (fs : List RxBD) (buffer : ℕ → RxBuf) :
    fs.zipIdx.map (fun p => (p.1.id,buffer p.2)) =
      (fs.map (·.id)).zip ((List.range fs.length).map buffer) := by
  apply ext_getElem (by simp)
  intro i h1 h2
  simp

lemma attached_eq (s : RxCppiCh) : attached s = (s.queue.map RxBD.holds).map Prod.snd := by
  rw [map_map]
  rfl

lemma attached_gather (s : RxCppiCh) :
    attached s = (frags s).map (·.buf) ++ (gather s.queue).2.map (·.buf) := by
  rw [← map_append,gather_append]
  rfl

lemma handedUp_append (s : RxCppiCh) (fs : List RxBD) :
    (s.up ++ [packetOf fs]).flatMap (fun p => p.bufList.map (·.1)) =
      handedUp s ++ fs.map (·.buf) := by
  simp [handedUp,packetOf]

lemma settled_of_all_some (h : rxPacket alloc s = some s')
    (hs : ∀ i < (frags s).length, (outcome alloc s i).isSome) : Settled alloc s s' := by
  obtain ⟨hq,hu,hf,-⟩ := rxPacket_spec h
  obtain ⟨haf,har,hab⟩ := @allocLoop_of_some ((frags s).map (·.buf)) (outcome alloc s)
    ⟨s.rxBuffer,s.freed,false⟩ (frags s).length hs
  have hnew : (range (frags s).length).map (packetAlloc alloc s).buffer = news alloc s :=
    map_buffer_eq_filterMap hab
  have hr : (packetAlloc alloc s).recyclePkt = false := har
  rw [zipIdx_holds_new,hnew] at hq
  rw [hr] at hu
  have hf' : s'.freed = s.freed := hf.trans haf
  refine ⟨?_,fun _ => ⟨hu,hq,hf'⟩,?_⟩
  · have hlen : (news alloc s).length = (frags s).length := by
      rw [← hnew]
      simp
    have hatt : attached s' = (gather s.queue).2.map (·.buf) ++ news alloc s := by
      rw [attached_eq,hq,map_append,map_map,map_snd_zip (by simp [hlen])]
      rfl
    have hup : handedUp s' = handedUp s ++ (frags s).map (·.buf) := by
      rw [← handedUp_append,handedUp,hu]
      rfl
    rw [owners,owners,hatt,hup,hf',attached_gather,perm_iff_count]
    intro b
    simp only [count_append]
    omega
  · rintro ⟨i,hi,hn⟩
    simpa [hn] using hs i hi

lemma settled_of_last_none (h : rxPacket alloc s = some s') (hk : (frags s).length = i+1)
    (hs : ∀ j < i, (outcome alloc s j).isSome) (hn : outcome alloc s i = none) :
    Settled alloc s s' := by
  obtain ⟨hq,hu,hf,-⟩ := rxPacket_spec h
  obtain ⟨hab,haf,har⟩ := @allocLoop_first_none ((frags s).map (·.buf)) (outcome alloc s)
    ⟨s.rxBuffer,s.freed,false⟩ i (by simp [hk]) hs hn
  have hnew : news alloc s = (range i).filterMap (outcome alloc s) := by
    rw [news,hk,range_succ,filterMap_append]
    simp [hn]
  have hpa : packetAlloc alloc s = allocLoop ((frags s).map (·.buf)) (outcome alloc s) (i+1)
      ⟨s.rxBuffer,s.freed,false⟩ := by rw [packetAlloc,hk]
  rw [← hpa] at hab haf har
  rw [zipIdx_holds_old (by simpa using hab),← map_append] at hq
  rw [har] at hu
  have hf' : s'.freed = s.freed ++ news alloc s := by rw [hf,haf,hnew]
  refine ⟨?_,?_,fun _ => ⟨hu,hq,by rw [hf']⟩⟩
  · have hatt : attached s' = (gather s.queue).2.map (·.buf) ++ (frags s).map (·.buf) := by
      rw [attached_eq,hq,map_map,map_append]
      rfl
    have hup : handedUp s' = handedUp s := by
      rw [handedUp,hu]
      rfl
    rw [owners,owners,hatt,hup,hf',attached_gather,perm_iff_count]
    intro b
    simp only [count_append]
    omega
  · intro hall
    simpa [hn] using hall i (by omega)

lemma not_settled_of_early_none (hfresh : (owners s ++ news alloc s).Nodup)
    (h : rxPacket alloc s = some s') (hk : i+1 < (frags s).length)
    (hs : ∀ j < i, (outcome alloc s j).isSome) (hn : outcome alloc s i = none) :
    ¬ Settled alloc s s' := by
  intro hset
  obtain ⟨hq,-,hf,-⟩ := rxPacket_spec h
  obtain ⟨-,hq',hperm⟩ := hset.dropped ⟨i,by omega,hn⟩
  have hdisj : ∀ b ∈ (frags s).map (·.buf), b ∉ news alloc s := by
    intro b hb hbn
    refine (nodup_append'.mp hfresh).2.2 ?_ hbn
    rw [owners,attached_gather]
    simp only [mem_append]
    exact .inl (.inl (.inl hb))
  obtain ⟨o,ho⟩ : ∃ o, ((frags s).map (·.buf))[0]? = some o :=
    ⟨_,getElem?_eq_getElem (by simp; omega)⟩
  obtain ⟨F,hF,-,hbad⟩ := @allocLoop_past_none ((frags s).map (·.buf)) (outcome alloc s)
    ⟨s.rxBuffer,s.freed,false⟩ (frags s).length i o ho (by omega) (by simp) hs hn
  have hbad := hbad (by omega)
  have hfF : s'.freed = s.freed ++ F := hf.trans hF
  obtain hmem | hnew := hbad
  · -- An old buffer was freed, but only new ones may be.
    rw [hfF] at hperm
    have hFn : F.Perm (news alloc s) := (perm_append_left_iff s.freed).mp hperm
    exact hdisj o (mem_of_getElem? ho) (hFn.mem_iff.mp hmem)
  -- A descriptor holds a new buffer, but each should hold its own old one.
  rw [hq,map_append] at hq'
  have hz := append_cancel_left hq'
  have hi := congrArg (fun l => l[i+1]?) hz
  simp only [getElem?_map,getElem?_zipIdx,zero_add,
    getElem?_eq_getElem hk,Option.map_some,Option.some.injEq,RxBD.holds,
    Prod.mk.injEq,true_and] at hi
  refine hdisj ((frags s)[i+1]).buf (mem_map.mpr ⟨_,getElem_mem hk,rfl⟩) ?_
  refine mem_filterMap.mpr ⟨i+1,by simpa using hk,?_⟩
  rw [← hi]
  exact hnew

lemma settled_of_rxPacket (hq : s.queue ≠ [])
    (hs : ∀ i, i+1 < (frags s).length → (outcome alloc s i).isSome)
    (h : rxPacket alloc s = some s') : Settled alloc s s' := by
  obtain ⟨i,hk⟩ : ∃ i, (frags s).length = i+1 :=
    Nat.exists_eq_succ_of_ne_zero (pos_iff_ne_zero.mp (gather_length_pos hq))
  have hs' : ∀ j < i, (outcome alloc s j).isSome := fun j hj => hs j (by omega)
  cases hn : outcome alloc s i with
  | none => exact settled_of_last_none h hk hs' hn
  | some b =>
    refine settled_of_all_some h fun j hj => ?_
    by_cases hji : j = i
    · simp [hji,hn]
    · exact hs' j (by omega)

/-- With one owner for each buffer before, and allocations that return new ones, a packet is
settled exactly when it fits the arrays and only its last allocation fails, if any. -/
theorem rxPacket_settled_iff {alloc : ℕ → Option RxBuf} {s : RxCppiCh} (hq : s.queue ≠ [])
    (hfresh : (owners s ++ news alloc s).Nodup) :
    (∃ s', rxPacket alloc s = some s' ∧ Settled alloc s s') ↔
      (frags s).length ≤ CPMAC_MAX_RX_FRAGMENTS ∧
        ∀ i, i+1 < (frags s).length → (outcome alloc s i).isSome := by
  constructor
  · rintro ⟨s',h,hset⟩
    refine ⟨Nat.le_of_not_lt fun hc => ?_,fun i hi => ?_⟩
    · rw [rxPacket_eq_none_iff.mpr hc] at h
      cases h
    -- Failures before `i` are excluded first, so that `i` would be the first one.
    induction i using Nat.strong_induction_on with
    | _ i ih =>
      cases hn : outcome alloc s i with
      | some b => rfl
      | none =>
        refine absurd hset (not_settled_of_early_none hfresh h hi ?_ hn)
        exact fun j hj => ih j hj (by omega)
  rintro ⟨hle,hs⟩
  obtain ⟨s',h⟩ : ∃ s', rxPacket alloc s = some s' := by
    refine Option.ne_none_iff_exists'.mp fun hc => ?_
    have := rxPacket_eq_none_iff.mp hc
    omega
  exact ⟨s',h,settled_of_rxPacket hq hs h⟩

/-- A channel with a received packet of two fragments and a descriptor still empty. -/
private def twoFragments : RxCppiCh where
  bufSize := 64
  queue := [⟨0,some 1,64,⟨false,false,false,100⟩,⟨10,20⟩⟩,
    ⟨1,some 2,64,⟨false,true,false,0⟩,⟨11,21⟩⟩,⟨2,none,64,⟨true,false,false,0⟩,⟨12,22⟩⟩]
  queueActive := true
  rxHDP := none
  rxCP := none
  rxBuffer := fun _ => ⟨0,0⟩
  allocs := 0
  up := []
  freed := []

private def failThenSucceed (i : ℕ) : Option RxBuf := if i = 0 then none else some ⟨i+30,i+40⟩

/-- The second descriptor is left with the new buffer, and its own is lost. -/
theorem rxPacket_not_settled_twoFragments :
    twoFragments.queue ≠ [] ∧
      (owners twoFragments ++ news failThenSucceed twoFragments).Nodup ∧
      ¬ ∃ s', rxPacket failThenSucceed twoFragments = some s' ∧
        Settled failThenSucceed twoFragments s' := by
  refine ⟨by decide,by decide,?_⟩
  rintro ⟨s',h,hset⟩
  obtain ⟨hq,-⟩ := rxPacket_spec h
  obtain ⟨-,hq',-⟩ := hset.dropped ⟨0,by decide,rfl⟩
  exact absurd (hq.symm.trans hq') (by decide)

/-- The same packet when only the second allocation fails. -/
theorem rxPacket_settled_twoFragments :
    ∃ s', rxPacket (fun i => if i = 0 then some ⟨30,40⟩ else none) twoFragments = some s' ∧
      Settled (fun i => if i = 0 then some ⟨30,40⟩ else none) twoFragments s' :=
  (rxPacket_settled_iff (by decide) (by decide)).mpr
    ⟨by decide,fun i hi => by
      have h2 : (frags twoFragments).length = 2 := rfl
      obtain rfl : i = 0 := by omega
      rfl⟩

end DslG624t.Cpmac.Fragments
