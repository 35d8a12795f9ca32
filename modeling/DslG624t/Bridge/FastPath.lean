import DslG624t.Bridge.Fdb
import DslG624t.Bridge.Forward

/-!
# The fast path against the original bridge

`br_input.c` and `br_forward.c` hold two versions of the bridge: the optimized one that is built,
and under `TI_SLOW_PATH` the original one.
-/

namespace DslG624t.Bridge.FastPath

open Ethernet Forward Function List

inductive PortState
  | disabled
  | listening
  | learning
  | forwarding
  | blocking
  deriving DecidableEq

/-- `BR_STATE_*` of the fast path: one bit each. -/
def PortState.fast : PortState → UInt8
  | .disabled => 0
  | .listening => 1
  | .learning => 2
  | .forwarding => 4
  | .blocking => 8

/-- `BR_STATE_*` with `TI_SLOW_PATH`. -/
def PortState.orig : PortState → UInt8
  | .disabled => 0
  | .listening => 1
  | .learning => 2
  | .forwarding => 3
  | .blocking => 4

structure Entry extends FdbEntry where
  isLocal : Bool
  deriving DecidableEq

/-- The database and its clock. Which bucket an address belongs to is up to the version. -/
structure Db where
  hash : Fin 256 → List Entry
  jiffies : BitVec 32
  ageingTime : BitVec 32
  forwardDelay : BitVec 32
  topologyChange : Bool

def Db.toFdb (db : Db) : Fdb :=
  ⟨fun i => (db.hash i).map Entry.toFdbEntry,db.jiffies,db.ageingTime,db.forwardDelay,
    db.topologyChange⟩

/-- `br_mac_hash` with `TI_SLOW_PATH`. -/
def brMacHashOrig (mac : Mac) : Fin 256 :=
  let x : BitVec 32 := mac.b0.toBitVec.setWidth 32
  let x := (x <<< 2) ^^^ mac.b1.toBitVec.setWidth 32
  let x := (x <<< 2) ^^^ mac.b2.toBitVec.setWidth 32
  let x := (x <<< 2) ^^^ mac.b3.toBitVec.setWidth 32
  let x := (x <<< 2) ^^^ mac.b4.toBitVec.setWidth 32
  let x := (x <<< 2) ^^^ mac.b5.toBitVec.setWidth 32
  let x := x ^^^ (x >>> 8)
  Fin.ofNat 256 x.toNat

section Db

variable (macHash : Mac → Fin 256)

def Db.first (db : Db) (addr : Mac) : Option Entry :=
  (db.hash (macHash addr)).find? fun e => maccmp e.addr addr == 0

def Db.brFdbGet (db : Db) (addr : Mac) : Option Entry :=
  (db.first macHash addr).filter fun e => !db.toFdb.hasExpired e.toFdbEntry

def fdbPossiblyReplace (source : Port) (isLocal : Bool) (jiffies : BitVec 32) (e : Entry) : Entry :=
  if !e.isStatic || isLocal then
    { e with dst := source, isLocal, isStatic := isLocal, ageingTimer := jiffies }
  else e

def replaceFirst (f : Entry → Entry) (addr : Mac) : List Entry → List Entry
  | [] => []
  | e :: es => if maccmp e.addr addr = 0 then f e :: es else e :: replaceFirst f addr es

/-- `br_fdb_insert`; `kmalloc` says whether there is memory for a new entry. -/
def Db.brFdbInsert (kmalloc : Bool) (source : Port) (addr : Mac) (isLocal : Bool) (db : Db) : Db :=
  let bucket := db.hash (macHash addr)
  match db.first macHash addr with
  | some _ =>
    let bucket := replaceFirst (fdbPossiblyReplace source isLocal db.jiffies) addr bucket
    { db with hash := update db.hash (macHash addr) bucket }
  | none =>
    if kmalloc then
      let bucket := ⟨⟨addr,source,db.jiffies,isLocal⟩,isLocal⟩ :: bucket
      { db with hash := update db.hash (macHash addr) bucket }
    else db

end Db

def BR_STATE_DISABLED_ORIG : UInt8 := 0
def BR_STATE_FORWARDING_ORIG : UInt8 := 3

/-- The device of the bridge, and whether the spanning-tree protocol is on. -/
structure BrDev where
  up : Bool
  promisc : Bool
  allmulti : Bool
  mcList : Bool
  stpEnabled : Bool

def shouldDeliverOrig (c : Br) (p : ℕ) (dev : Dev) : Bool :=
  dev ≠ .port p && c.state p = BR_STATE_FORWARDING_ORIG

def brForwardHook (dst skb : ℕ) (w : World) : World :=
  ((w.emit (.use skb)).setDev skb (.port dst)).emit (.queue skb dst)

def brForwardOrig (c : Br) (dst skb : ℕ) (w : World) : World :=
  let w := w.emit (.use skb)
  if shouldDeliverOrig c dst (w.dev skb) then brForwardHook dst skb w else w.emit (.free skb)

/-- The loop of `br_flood`, which both versions have. The last port gets the buffer itself. -/
def floodWith (deliver : ℕ → Dev → Bool) (send : ℕ → ℕ → World → World) (c : Br) (skb : ℕ) :
    List ℕ → Option ℕ → World → World
  | [], some prev, w => send prev skb w
  | [], none, w => w.emit (.free skb)
  | p :: ps, prev, w =>
    let w := w.emit (.use skb)
    if deliver p (w.dev skb) then
      match prev with
      | none => floodWith deliver send c skb ps (some p) w
      | some q =>
        match skbClone c skb w with
        | (none,w) => w.emit (.free skb)
        | (some skb2,w) => floodWith deliver send c skb ps (some p) (send q skb2 w)
    else floodWith deliver send c skb ps prev w

def floodPortsOrig (c : Br) (skb : ℕ) : List ℕ → Option ℕ → World → World :=
  floodWith (shouldDeliverOrig c) brForwardHook c skb

def brFloodForward (c : Br) (skb : ℕ) (clone : Bool) (w : World) : World :=
  if clone then
    match skbClone c skb w with
    | (none,w) => w
    | (some skb2,w) => floodPortsOrig c skb2 c.portList none w
  else floodPortsOrig c skb c.portList none w

def passCloneUp (c : Br) (skb : ℕ) (w : World) : Bool × World :=
  match skbClone c skb w with
  | (none,w) => (false,w)
  | (some skb2,w) => (true,brPassFrameUp skb2 w)

def finishUp (passedup : Bool) (skb : ℕ) (w : World) : World :=
  if passedup then w.emit (.free skb) else brPassFrameUp skb w

def isSpecial (c : Br) : Bool :=
  c.data 0 = 0x01 ∧ c.data 1 = 0x80 ∧ c.data 2 = 0xc2 ∧ c.data 3 = 0x00 ∧ c.data 4 = 0x00 ∧
    c.data 5 &&& 0xF0 = 0

/-- `__br_handle_frame_orig` from the test of the ingress port's state on. -/
def forwardOrig (c : Br) (source skb : ℕ) (passedup : Bool) (w : World) : World :=
  if c.state source = BR_STATE_FORWARDING_ORIG then
    if c.group then finishUp passedup skb (brFloodForward c skb true w)
    else
      let w := Forward.brFdbGet w
      match c.fdb with
      | some hit =>
        if hit.isLocal then finishUp passedup skb w else brForwardOrig c hit.dst skb w
      | none => brFloodForward c skb false w
  else w.emit (.free skb)

/-- `__br_handle_frame_orig`. A special frame goes to the spanning-tree protocol, which frees it,
or is dropped. -/
def handleFrameOrig (d : BrDev) (c : Br) (source skb : ℕ) (w : World) : World :=
  let w := w.emit (.use skb)
  if !d.up || c.state source = BR_STATE_DISABLED_ORIG then w.emit (.free skb)
  else
    let (passedup,w) := if d.promisc then passCloneUp c skb w else (false,w)
    if c.data 6 &&& 1 ≠ 0 then w.emit (.free skb)
    else
      let (passedup,w) :=
        if !passedup && c.group && (d.allmulti || d.mcList) then passCloneUp c skb w
        else (passedup,w)
      if d.stpEnabled && isSpecial c then w.emit (.free skb)
      else
        let w := if c.state source = BR_STATE_LEARNING ∨ c.state source = BR_STATE_FORWARDING_ORIG
          then Forward.brFdbInsert w else w
        forwardOrig c source skb passedup w

structure Setup where
  portList : List ℕ
  state : ℕ → PortState
  data : ℕ → UInt8
  filterFrame : ℕ → Bool
  allocEntry : Bool
  allocPort : Bool
  kmalloc : Bool

def macAt (data : ℕ → UInt8) (i : ℕ) : Mac :=
  ⟨data i,data (i+1),data (i+2),data (i+3),data (i+4),data (i+5)⟩

def lookup (macHash : Mac → Fin 256) (b : Setup) (source : Port) (db : Db) : Option FdbHit :=
  ((db.brFdbInsert macHash b.kmalloc source (macAt b.data 6) false).brFdbGet macHash
    (macAt b.data 0)).map fun e => ⟨e.isLocal,e.dst.portNo⟩

/-- No filter, no multicast forwarding, and all clones succeed. -/
def Setup.toBr (b : Setup) (code : PortState → UInt8) (fdb : Option FdbHit) : Br where
  portList := b.portList
  state := fun p => code (b.state p)
  brFilterActive := false
  filterFrame := b.filterFrame
  mcForwarding := false
  fdb := fdb
  data := b.data
  cloneFails := fun _ => false
  allocEntry := b.allocEntry
  allocPort := b.allocPort

def Setup.start (source : ℕ) : World := World.start (.port source) (fun _ => none) .notApplicable

def runFast (b : Setup) (source : Port) (db : Db) : World :=
  handleFrame none (b.toBr PortState.fast (lookup brMacHash b source db)) source.portNo 0
    (Setup.start source.portNo)

def runOrig (d : BrDev) (b : Setup) (source : Port) (db : Db) : World :=
  handleFrameOrig d (b.toBr PortState.orig (lookup brMacHashOrig b source db)) source.portNo 0
    (Setup.start source.portNo)

def sentOn : Event → Option ℕ
  | .queue _ p => some p
  | _ => none

def isUp : Event → Bool
  | .passUp _ => true
  | _ => false

def sent (w : World) : List ℕ := w.trace.filterMap sentOn

def ups (w : World) : ℕ := w.trace.countP isUp

def Db.clock (db : Db) : BitVec 32 × BitVec 32 × BitVec 32 × Bool :=
  (db.jiffies,db.ageingTime,db.forwardDelay,db.topologyChange)

structure Same (fast orig : Db) : Prop where
  first : ∀ addr, fast.first brMacHash addr = orig.first brMacHashOrig addr
  clock : fast.clock = orig.clock

section Learning

variable {macHash : Mac → Fin 256}

lemma find?_replaceFirst {f : Entry → Entry} (hf : ∀ e, (f e).addr = e.addr) (addr a : Mac)
    (l : List Entry) :
    (replaceFirst f addr l).find? (fun e => maccmp e.addr a == 0) =
      if a = addr then (l.find? fun e => maccmp e.addr a == 0).map f
      else l.find? fun e => maccmp e.addr a == 0 := by
  induction l with
  | nil => simp [replaceFirst]
  | cons e l ih =>
    by_cases he : e.addr = addr
    · have hhead : maccmp e.addr addr = 0 := (maccmp_eq_zero_iff _ _).mpr he
      rw [replaceFirst,if_pos hhead]
      by_cases ha : a = addr
      · simp [ha,hf,hhead]
      · have hother : maccmp e.addr a ≠ 0 := by
          intro h
          exact ha (((maccmp_eq_zero_iff _ _).mp h).symm.trans he)
        simp [ha,hf,hother]
    have hhead : maccmp e.addr addr ≠ 0 := fun h => he ((maccmp_eq_zero_iff _ _).mp h)
    rw [replaceFirst,if_neg hhead,find?_cons,find?_cons,ih]
    by_cases ha : a = addr
    · have hskip : (maccmp e.addr addr == 0) = false := by simpa using hhead
      simp [ha,hskip]
    · simp [ha]

def learned (kmalloc : Bool) (source : Port) (addr : Mac) (isLocal : Bool) (jiffies : BitVec 32) :
    Option Entry → Option Entry
  | some e => some (fdbPossiblyReplace source isLocal jiffies e)
  | none => if kmalloc then some ⟨⟨addr,source,jiffies,isLocal⟩,isLocal⟩ else none

lemma fdbPossiblyReplace_addr (source : Port) (isLocal : Bool) (jiffies : BitVec 32)
    (e : Entry) : (fdbPossiblyReplace source isLocal jiffies e).addr = e.addr := by
  rw [fdbPossiblyReplace]
  split <;> rfl

lemma Db.first_setBucket (db : Db) (addr a : Mac) (bucket : List Entry) :
    ({ db with hash := update db.hash (macHash addr) bucket } : Db).first macHash a =
      if macHash a = macHash addr then bucket.find? (fun e => maccmp e.addr a == 0)
      else db.first macHash a := by
  show (update db.hash (macHash addr) bucket (macHash a)).find? _ = _
  by_cases h : macHash a = macHash addr
  · rw [h,update_self,if_pos rfl]
  · rw [update_of_ne h,if_neg h]
    rfl

section

variable (kmalloc : Bool) (source : Port) (addr : Mac) (isLocal : Bool) (db : Db)

lemma Db.first_brFdbInsert (a : Mac) :
    (db.brFdbInsert macHash kmalloc source addr isLocal).first macHash a =
      if a = addr then learned kmalloc source addr isLocal db.jiffies (db.first macHash addr)
      else db.first macHash a := by
  have hbucket : macHash a = macHash addr →
      (db.hash (macHash addr)).find? (fun e => maccmp e.addr a == 0) = db.first macHash a := by
    intro h
    rw [Db.first,h]
  rw [Db.brFdbInsert]
  cases hfirst : db.first macHash addr with
  | some e =>
    rw [Db.first_setBucket,find?_replaceFirst (fdbPossiblyReplace_addr source isLocal _)]
    by_cases ha : a = addr
    · rw [if_pos (congrArg macHash ha),if_pos ha,if_pos ha,hbucket (congrArg macHash ha),ha,hfirst]
      rfl
    · rw [if_neg ha]
      split
      next h => exact hbucket h
      next => rfl
  | none =>
    cases kmalloc with
    | true =>
      rw [if_pos rfl,Db.first_setBucket,find?_cons]
      by_cases ha : a = addr
      · have hhead : (maccmp addr a == 0) = true := by
          rw [beq_iff_eq,maccmp_eq_zero_iff,ha]
        rw [if_pos (congrArg macHash ha),if_pos ha]
        simp only [hhead]
        rfl
      have hskip : (maccmp addr a == 0) = false := by
        rw [beq_eq_false_iff_ne,Ne,maccmp_eq_zero_iff]
        exact fun h => ha h.symm
      simp only [hskip]
      split
      next h => exact hbucket h
      next => rfl
    | false =>
      by_cases ha : a = addr
      · rw [if_pos ha,ha,if_neg Bool.false_ne_true,hfirst]
        rfl
      · rw [if_neg ha,if_neg Bool.false_ne_true]

lemma Db.clock_brFdbInsert : (db.brFdbInsert macHash kmalloc source addr isLocal).clock = db.clock := by
  rw [Db.brFdbInsert]
  split
  · rfl
  · split <;> rfl

end

lemma Db.hasExpired_eq {db db' : Db} (h : db.clock = db'.clock) (e : FdbEntry) :
    db.toFdb.hasExpired e = db'.toFdb.hasExpired e := by
  obtain ⟨hash,jiffies,ageingTime,forwardDelay,topologyChange⟩ := db
  obtain ⟨hash',jiffies',ageingTime',forwardDelay',topologyChange'⟩ := db'
  obtain ⟨rfl,rfl,rfl,rfl⟩ := h
  rfl

lemma Same.brFdbInsert {fast orig : Db} (h : Same fast orig) (kmalloc : Bool) (source : Port)
    (addr : Mac) (isLocal : Bool) :
    Same (fast.brFdbInsert brMacHash kmalloc source addr isLocal)
      (orig.brFdbInsert brMacHashOrig kmalloc source addr isLocal) := by
  refine ⟨fun a => ?_,?_⟩
  · have hjiffies : fast.jiffies = orig.jiffies := congrArg Prod.fst h.clock
    rw [Db.first_brFdbInsert,Db.first_brFdbInsert,h.first,h.first,hjiffies]
  · rw [Db.clock_brFdbInsert,Db.clock_brFdbInsert,h.clock]

lemma Same.lookup {fast orig : Db} (h : Same fast orig) (b : Setup) (source : Port) :
    lookup brMacHash b source fast = lookup brMacHashOrig b source orig := by
  have hlearned := h.brFdbInsert b.kmalloc source (macAt b.data 6) false
  rw [FastPath.lookup,FastPath.lookup,Db.brFdbGet,Db.brFdbGet,hlearned.first]
  simp only [Db.hasExpired_eq hlearned.clock]

end Learning

section Trace

variable {c : Br} {deliver : ℕ → Dev → Bool} {send : ℕ → ℕ → World → World} {skb : ℕ} {dev : Dev}
  {w w₁ w₂ : World}

/-- The trace grew by sending on these ports and passing up so many copies. -/
structure Did (w w' : World) (o : List ℕ × ℕ) : Prop where
  sent : FastPath.sent w' = FastPath.sent w ++ o.1
  ups : FastPath.ups w' = FastPath.ups w+o.2

lemma Did.trans {o1 o2 : List ℕ × ℕ} (h1 : Did w w₁ o1) (h2 : Did w₁ w₂ o2) :
    Did w w₂ (o1.1 ++ o2.1,o1.2+o2.2) :=
  ⟨by rw [h2.sent,h1.sent,append_assoc],by rw [h2.ups,h1.ups,add_assoc]⟩

lemma Did.after {o : List ℕ × ℕ} (h1 : Did w w₁ ([],0)) (h2 : Did w₁ w₂ o) : Did w w₂ o := by
  have h := h1.trans h2
  rwa [zero_add] at h

lemma Did.setDev {o : List ℕ × ℕ} (h : Did w w₁ o) : Did w (w₁.setDev skb dev) o := ⟨h.sent,h.ups⟩

lemma did_emit (e : Event) (w : World) : Did w (w.emit e) ((sentOn e).toList,(isUp e).toNat) := by
  constructor
  · cases h : sentOn e <;> simp [World.emit,sent,h]
  · cases h : isUp e <;> simp [World.emit,ups,h]

/-- What sending one buffer comes to: it goes out on these ports, and no other buffer changes. -/
structure SendsOn (w w' : World) (skb : ℕ) (ports : List ℕ) : Prop extends Did w w' (ports,0) where
  made : w'.made = w.made
  dev : ∀ s ≠ skb, w'.dev s = w.dev s

lemma brForwardHook_sendsOn (q skb : ℕ) (w : World) : SendsOn w (brForwardHook q skb w) skb [q] :=
  ⟨(did_emit (.use skb) w).setDev.after (did_emit (.queue skb q) _),rfl,
    fun _ hs => update_of_ne hs _ _⟩

lemma brSendFrame_sendsOn (hf : c.brFilterActive = false) (q skb : ℕ) (w : World) :
    SendsOn w (brSendFrame c q skb w) skb ([q].filter fun p => shouldDeliver c p (w.dev skb)) := by
  by_cases hd : shouldDeliver c q (w.dev skb) = true
  · have hsend : brSendFrame c q skb w = brForwardHook q skb w := by
      rw [brSendFrame,if_pos (by exact hd),hf,if_neg Bool.false_ne_true]
      rfl
    simpa [hsend,hd] using brForwardHook_sendsOn q skb w
  · have hdrop : brSendFrame c q skb w = (w.emit (.use skb)).emit (.free skb) := if_neg hd
    have hnone : [q].filter (fun p => shouldDeliver c p (w.dev skb)) = [] := by simp [hd]
    rw [hdrop,hnone]
    exact ⟨(did_emit (.use skb) w).after (did_emit (.free skb) _),rfl,fun _ _ => rfl⟩

lemma skbClone_ok (hc : ∀ k, c.cloneFails k = false) (skb : ℕ) (w : World) :
    ∃ w', skbClone c skb w = (some w.made,w') ∧ Did w w' ([],0) ∧ w'.made = w.made+1 ∧
      w'.dev w.made = w.dev skb ∧ ∀ s ≠ w.made, w'.dev s = w.dev s := by
  refine ⟨_,by rw [skbClone,if_neg (by rw [hc]; exact Bool.false_ne_true)],?_,rfl,?_,?_⟩
  · obtain ⟨hsent,hups⟩ := did_emit (.clone skb w.made) w
    exact ⟨hsent,hups⟩
  · exact update_self _ _ _
  · intro s hs
    exact update_of_ne hs _ _

lemma did_floodWith (hc : ∀ k, c.cloneFails k = false)
    (hsend : ∀ q skb w, deliver q (w.dev skb) = true → SendsOn w (send q skb w) skb [q])
    (ports : List ℕ) (prev : Option ℕ) (w : World) (hlt : skb < w.made) (hdev : w.dev skb = dev)
    (hprev : ∀ q, prev = some q → deliver q dev = true) :
    Did w (floodWith deliver send c skb ports prev w)
      (prev.toList ++ ports.filter fun p => deliver p dev, 0) := by
  induction ports generalizing prev w with
  | nil =>
    cases prev with
    | none => exact did_emit (.free skb) w
    | some q => exact (hsend q skb w (by rw [hdev]; exact hprev q rfl)).toDid
  | cons p ports ih =>
    have hdev' : (w.emit (.use skb)).dev skb = dev := hdev
    rw [floodWith.eq_def]
    apply (did_emit (.use skb) w).after
    simp only [hdev']
    by_cases hp : deliver p dev = true
    · have hp' : ∀ q, some p = some q → deliver q dev = true := by
        intro q hq
        cases hq
        exact hp
      rw [filter_cons,if_pos hp,if_pos hp]
      cases prev with
      | none => exact ih (some p) _ hlt hdev hp'
      | some q =>
        obtain ⟨v,hclone,hv,hmade,hnew,hold⟩ := skbClone_ok hc skb (w.emit (.use skb))
        have hq := hsend q _ v (by rw [hnew,hdev']; exact hprev q rfl)
        have hne : skb ≠ (w.emit (.use skb)).made := ne_of_lt hlt
        have hlt' : skb < (send q (w.emit (.use skb)).made v).made := by
          rw [hq.made,hmade]
          exact Nat.lt_succ_of_lt hlt
        have hrest := ih (some p) _ hlt' (by rw [hq.dev skb hne,hold skb hne,hdev']) hp'
        rw [hclone]
        exact hv.after (hq.toDid.trans hrest)
    · rw [filter_cons,if_neg hp,if_neg hp]
      exact ih prev _ hlt hdev hprev

lemma floodPorts_eq (c : Br) (skb : ℕ) (ports : List ℕ) (prev : Option ℕ) (w : World) :
    floodPorts c skb ports prev w =
      floodWith (shouldDeliver c) (brSendFrame c) c skb ports prev w := by
  induction ports generalizing prev w with
  | nil => cases prev <;> rfl
  | cons p ports ih =>
    cases prev with
    | none =>
      rw [floodPorts]
      rw [ih,ih]
      rfl
    | some q =>
      rw [floodPorts]
      simp only [ih]
      rfl

def outcome (deliver : ℕ → Bool) (ports : List ℕ) (group : Bool) (fdb : Option FdbHit) :
    List ℕ × ℕ :=
  if group then (ports.filter deliver,1)
  else match fdb with
    | some hit => if hit.isLocal then ([],1) else ([hit.dst].filter deliver,0)
    | none => (ports.filter deliver,0)

lemma did_brFdbGet (w : World) : Did w (Forward.brFdbGet w) ([],0) :=
  (did_emit _ w).after (did_emit (.lock (.release .hashLock .read)) _)

lemma did_brPassFrameUp (skb : ℕ) (w : World) : Did w (brPassFrameUp skb w) ([],1) :=
  (did_emit (.use skb) w).setDev.after (did_emit (.passUp skb) _)

lemma did_learn (p : Prop) [Decidable p] (w : World) :
    Did w (if p then Forward.brFdbInsert w else w) ([],0) ∧
      (if p then Forward.brFdbInsert w else w).made = w.made ∧
      (if p then Forward.brFdbInsert w else w).dev = w.dev := by
  split
  · exact ⟨(did_emit _ w).after (did_emit (.lock (.release .hashLock .write)) _),rfl,rfl⟩
  · exact ⟨⟨(append_nil _).symm,rfl⟩,rfl,rfl⟩

lemma did_flood (hc : ∀ k, c.cloneFails k = false)
    (hsend : ∀ q skb w, deliver q (w.dev skb) = true → SendsOn w (send q skb w) skb [q])
    (hlt : skb < w.made) (hdev : w.dev skb = dev) (ports : List ℕ) :
    Did w (floodWith deliver send c skb ports none w)
      (ports.filter fun p => deliver p dev, 0) ∧
      ∃ skb2 w₁, skbClone c skb w = (some skb2,w₁) ∧
        Did w (floodWith deliver send c skb2 ports none w₁)
          (ports.filter fun p => deliver p dev, 0) := by
  obtain ⟨w₁,hclone,hw₁,hmade,hnew,-⟩ := skbClone_ok hc skb w
  have hlt₁ : w.made < w₁.made := by
    rw [hmade]
    exact Nat.lt_succ_self _
  refine ⟨did_floodWith hc hsend ports none w hlt hdev nofun,w.made,w₁,hclone,hw₁.after ?_⟩
  exact did_floodWith hc hsend ports none w₁ hlt₁ (hnew.trans hdev) nofun

section Fast

variable (hc : ∀ k, c.cloneFails k = false) (hf : c.brFilterActive = false)
include hc hf

lemma did_brFlood (hlt : skb < w.made) (hdev : w.dev skb = dev) (clone : Bool) :
    Did w (brFlood c skb clone w) (c.portList.filter fun p => shouldDeliver c p dev, 0) := by
  have hsend (q skb : ℕ) (w : World) (hd : shouldDeliver c q (w.dev skb) = true) :
      SendsOn w (brSendFrame c q skb w) skb [q] := by
    simpa [hd] using brSendFrame_sendsOn hf q skb w
  obtain ⟨hself,skb2,w₁,hclone,hcloned⟩ := did_flood hc hsend hlt hdev c.portList
  cases clone with
  | false =>
    rw [brFlood,floodPorts_eq]
    exact hself
  | true =>
    rw [brFlood,hclone]
    dsimp only
    rw [floodPorts_eq]
    exact hcloned

lemma did_handleFrame (hmc : c.mcForwarding = false) {source skb : ℕ} (hlt : skb < w.made)
    (hdev : w.dev skb = .port source) :
    Did w (handleFrame none c source skb w)
      (if c.data 6 &&& 1 = 0 ∧ c.forwarding source = true then
        outcome (fun p => shouldDeliver c p (.port source)) c.portList c.group c.fdb
      else ([],0)) := by
  rw [handleFrame]
  by_cases h6 : c.data 6 &&& 1 = 0
  · rw [if_neg (not_not.mpr h6)]
    obtain ⟨hquiet,hmade,hdev'⟩ := did_learn
      (c.state source &&& (BR_STATE_LEARNING ||| BR_STATE_FORWARDING) ≠ 0) (w.emit (.use skb))
    generalize (if c.state source &&& (BR_STATE_LEARNING ||| BR_STATE_FORWARDING) ≠ 0 then
      Forward.brFdbInsert (w.emit (.use skb)) else w.emit (.use skb)) = v at *
    have hv := (did_emit (.use skb) w).after hquiet
    replace hlt : skb < v.made := by rw [hmade]; exact hlt
    replace hdev : v.dev skb = .port source := by rw [hdev']; exact hdev
    by_cases hfwd : c.forwarding source = true
    · have hboth : c.data 6 &&& 1 = 0 ∧ c.forwarding source = true := ⟨h6,hfwd⟩
      rw [if_pos hfwd,if_pos hboth]
      unfold outcome
      apply hv.after
      by_cases hg : c.group = true
      · have hmulti : ¬ c.multicast = true := by simp [Br.multicast,hmc]
        rw [if_pos hg,if_pos hg,handleGroupFrame,if_neg hmulti]
        have hall := (did_brFlood hc hf hlt hdev true).trans (did_brPassFrameUp skb _)
        rwa [append_nil] at hall
      rw [if_neg hg,if_neg hg]
      apply (did_brFdbGet v).after
      cases c.fdb with
      | none => exact did_brFlood hc hf (w := Forward.brFdbGet v) hlt hdev false
      | some hit =>
        dsimp only
        split
        · exact did_brPassFrameUp skb _
        · exact hdev ▸ (brSendFrame_sendsOn hf hit.dst skb (Forward.brFdbGet v)).toDid
    · rw [if_neg hfwd,if_neg (fun h => hfwd h.2)]
      exact hv.after (did_emit (.free skb) v)
  · rw [if_pos h6,if_neg (fun h => h6 h.1)]
    exact (did_emit (.use skb) w).after (did_emit (.free skb) _)

end Fast

def early (d : BrDev) (c : Br) : Bool := c.group && (d.allmulti || d.mcList)

section Orig

variable (hc : ∀ k, c.cloneFails k = false)
include hc

lemma did_brFloodForward (hlt : skb < w.made) (hdev : w.dev skb = dev) (clone : Bool) :
    Did w (brFloodForward c skb clone w)
      (c.portList.filter fun p => shouldDeliverOrig c p dev, 0) := by
  have hsend (q skb : ℕ) (w : World) (_ : shouldDeliverOrig c q (w.dev skb) = true) :=
    brForwardHook_sendsOn q skb w
  obtain ⟨hself,skb2,w₁,hclone,hcloned⟩ := did_flood hc hsend hlt hdev c.portList
  cases clone with
  | false => exact hself
  | true =>
    rw [brFloodForward,hclone]
    exact hcloned

omit hc in
lemma did_brForwardOrig (hdev : w.dev skb = dev) (q : ℕ) :
    Did w (brForwardOrig c q skb w) ([q].filter fun p => shouldDeliverOrig c p dev, 0) := by
  subst hdev
  rw [brForwardOrig]
  apply (did_emit (.use skb) w).after
  by_cases hd : shouldDeliverOrig c q (w.dev skb) = true
  · rw [if_pos (by exact hd)]
    simpa [hd] using (brForwardHook_sendsOn q skb _).toDid
  · have hnone : [q].filter (fun p => shouldDeliverOrig c p (w.dev skb)) = [] := by simp [hd]
    rw [if_neg (by exact hd),hnone]
    exact did_emit (.free skb) _

omit hc in
lemma did_finishUp (passedup : Bool) (skb : ℕ) (w : World) :
    Did w (finishUp passedup skb w) ([],if passedup = true then 0 else 1) := by
  cases passedup with
  | false => exact did_brPassFrameUp skb w
  | true => exact did_emit (.free skb) w

lemma did_passCloneUp (skb : ℕ) (w : World) (hlt : skb < w.made) :
    ∃ v, passCloneUp c skb w = (true,v) ∧ Did w v ([],1) ∧ skb < v.made ∧
      v.dev skb = w.dev skb := by
  obtain ⟨w₁,hclone,hw₁,hmade,-,hold⟩ := skbClone_ok hc skb w
  have hne : skb ≠ w.made := ne_of_lt hlt
  refine ⟨brPassFrameUp w.made w₁,by rw [passCloneUp,hclone],
    hw₁.after (did_brPassFrameUp w.made w₁),?_,?_⟩
  · show skb < w₁.made
    rw [hmade]
    exact Nat.lt_succ_of_lt hlt
  · rw [← hold skb hne]
    exact update_of_ne hne _ _

lemma did_forwardOrig {source skb : ℕ} {passedup : Bool} (hp : passedup = true → c.group = true)
    (hlt : skb < w.made) (hdev : w.dev skb = .port source) :
    Did w (forwardOrig c source skb passedup w)
      (if c.state source = BR_STATE_FORWARDING_ORIG then
        ((outcome (fun p => shouldDeliverOrig c p (.port source)) c.portList c.group c.fdb).1,
          if passedup = true then 0 else
            (outcome (fun p => shouldDeliverOrig c p (.port source)) c.portList c.group c.fdb).2)
      else ([],0)) := by
  rw [forwardOrig]
  by_cases hfwd : c.state source = BR_STATE_FORWARDING_ORIG
  · rw [if_pos hfwd,if_pos hfwd]
    by_cases hg : c.group = true
    · rw [if_pos hg]
      have hall := (did_brFloodForward hc hlt hdev true).trans (did_finishUp passedup skb _)
      simpa [outcome,hg] using hall
    obtain rfl : passedup = false := by
      cases passedup with
      | false => rfl
      | true => exact absurd (hp rfl) hg
    apply (did_brFdbGet w).after
    cases hfdb : c.fdb with
    | none =>
      have hflood := did_brFloodForward hc (w := Forward.brFdbGet w) hlt hdev false
      simpa [outcome,hg] using hflood
    | some hit =>
      dsimp only
      by_cases hl : hit.isLocal = true
      · rw [if_pos hl]
        simpa [outcome,hg,hl] using did_finishUp false skb (Forward.brFdbGet w)
      · rw [if_neg hl]
        have hsend := did_brForwardOrig (c := c) (w := Forward.brFdbGet w) hdev hit.dst
        simpa [outcome,hg,hl] using hsend
  · rw [if_neg hfwd,if_neg hfwd]
    exact did_emit (.free skb) w

lemma did_early (d : BrDev) (skb : ℕ) (w : World) (hlt : skb < w.made) :
    ∃ v, (if (!false && c.group && (d.allmulti || d.mcList)) = true then passCloneUp c skb w
      else (false,w)) = (early d c,v) ∧
      Did w v ([],(early d c).toNat) ∧ skb < v.made ∧ v.dev skb = w.dev skb := by
  cases he : early d c with
  | true =>
    obtain ⟨v,hv,hdid,hmade,hdev⟩ := did_passCloneUp hc skb w hlt
    exact ⟨v,by rw [if_pos (by exact he),hv],hdid,hmade,hdev⟩
  | false =>
    have hnot : ¬ early d c = true := by simp [he]
    exact ⟨w,if_neg hnot,⟨(append_nil _).symm,rfl⟩,hlt,rfl⟩

lemma did_handleFrameOrig {d : BrDev} (hup : d.up = true) (hpromisc : d.promisc = false)
    (hstp : d.stpEnabled = false) {source skb : ℕ} (hlt : skb < w.made)
    (hdev : w.dev skb = .port source) :
    Did w (handleFrameOrig d c source skb w)
      (if c.data 6 &&& 1 = 0 ∧ c.state source ≠ BR_STATE_DISABLED_ORIG then
        if c.state source = BR_STATE_FORWARDING_ORIG then
          outcome (fun p => shouldDeliverOrig c p (.port source)) c.portList c.group c.fdb
        else ([],(early d c).toNat)
      else ([],0)) := by
  have hquiet := did_emit (.use skb) w
  rw [handleFrameOrig]
  dsimp only
  rw [hup,hpromisc,hstp]
  by_cases hdis : c.state source = BR_STATE_DISABLED_ORIG
  · have hnot : ¬ (c.data 6 &&& 1 = 0 ∧ c.state source ≠ BR_STATE_DISABLED_ORIG) :=
      fun h => h.2 hdis
    rw [if_pos (by simp [hdis]),if_neg hnot]
    exact hquiet.after (did_emit (.free skb) _)
  rw [if_neg (by simp [hdis]),if_neg Bool.false_ne_true]
  by_cases h6 : c.data 6 &&& 1 = 0
  · have hboth : c.data 6 &&& 1 = 0 ∧ c.state source ≠ BR_STATE_DISABLED_ORIG := ⟨h6,hdis⟩
    rw [if_neg (not_not.mpr h6),if_pos hboth]
    obtain ⟨v,hv,hdid,hmade,hdevv⟩ := did_early hc d skb (w.emit (.use skb)) hlt
    rw [hv]
    obtain ⟨hlearn,hmadeu,hdevu⟩ := did_learn
      (c.state source = BR_STATE_LEARNING ∨ c.state source = BR_STATE_FORWARDING_ORIG) v
    generalize (if c.state source = BR_STATE_LEARNING ∨ c.state source = BR_STATE_FORWARDING_ORIG
      then Forward.brFdbInsert v else v) = u at *
    have hgroup : early d c = true → c.group = true := fun h => (Bool.and_eq_true_iff.mp h).1
    have hlt' : skb < u.made := by
      rw [hmadeu]
      exact hmade
    have hdev' : u.dev skb = .port source := by
      rw [hdevu,hdevv]
      exact hdev
    have hrest := did_forwardOrig hc hgroup hlt' hdev'
    have hall := hquiet.after (hdid.trans (hlearn.after hrest))
    by_cases hfwd : c.state source = BR_STATE_FORWARDING_ORIG
    · rw [if_pos hfwd] at hall ⊢
      cases he : early d c with
      | false => simpa [he] using hall
      | true => simpa [he,outcome,hgroup he] using hall
    · rw [if_neg hfwd] at hall ⊢
      exact hall
  · have hnot : ¬ (c.data 6 &&& 1 = 0 ∧ c.state source ≠ BR_STATE_DISABLED_ORIG) :=
      fun h => h6 h.1
    rw [if_pos h6,if_neg hnot]
    exact hquiet.after (did_emit (.free skb) _)

end Orig

end Trace

def mayGet (b : Setup) (source p : ℕ) : Bool := p ≠ source && b.state p = .forwarding

section Compare

variable (b : Setup) (fdb : Option FdbHit) (source p : ℕ)

lemma toBr_state (code : PortState → UInt8) : (b.toBr code fdb).state p = code (b.state p) := rfl

lemma forwarding_toBr :
    (b.toBr PortState.fast fdb).forwarding p = decide (b.state p = .forwarding) := by
  show decide ((b.state p).fast &&& BR_STATE_FORWARDING ≠ 0) = _
  cases b.state p <;> decide

lemma orig_eq_forwarding_iff :
    (b.state p).orig = BR_STATE_FORWARDING_ORIG ↔ b.state p = .forwarding := by
  cases b.state p <;> decide

lemma orig_eq_disabled_iff : (b.state p).orig = BR_STATE_DISABLED_ORIG ↔ b.state p = .disabled := by
  cases b.state p <;> decide

lemma port_ne_port : decide (Dev.port source ≠ .port p) = decide (p ≠ source) := by
  apply decide_eq_decide.mpr
  rw [Ne,Dev.port.injEq,eq_comm]

lemma shouldDeliver_toBr :
    shouldDeliver (b.toBr PortState.fast fdb) p (.port source) = mayGet b source p := by
  rw [shouldDeliver,mayGet,forwarding_toBr,port_ne_port]

lemma shouldDeliverOrig_toBr :
    shouldDeliverOrig (b.toBr PortState.orig fdb) p (.port source) = mayGet b source p := by
  rw [shouldDeliverOrig,port_ne_port]
  congr 1
  exact decide_eq_decide.mpr (orig_eq_forwarding_iff b p)

end Compare

section Runs

variable (b : Setup) (source : Port)

def Setup.group : Bool := b.data 0 &&& 1 ≠ 0

lemma did_runFast (db : Db) :
    Did (Setup.start source.portNo) (runFast b source db)
      (if b.data 6 &&& 1 = 0 ∧ b.state source.portNo = .forwarding then
        outcome (mayGet b source.portNo) b.portList b.group (lookup brMacHash b source db)
      else ([],0)) := by
  have h := did_handleFrame (c := b.toBr PortState.fast (lookup brMacHash b source db))
    (fun _ => rfl) rfl rfl (show 0 < (Setup.start source.portNo).made from one_pos) rfl
  simp only [forwarding_toBr,shouldDeliver_toBr,decide_eq_true_eq] at h
  exact h

lemma did_runOrig (allmulti mcList : Bool) (db : Db) :
    Did (Setup.start source.portNo) (runOrig ⟨true,false,allmulti,mcList,false⟩ b source db)
      (if b.data 6 &&& 1 = 0 ∧ b.state source.portNo ≠ .disabled then
        if b.state source.portNo = .forwarding then
          outcome (mayGet b source.portNo) b.portList b.group (lookup brMacHashOrig b source db)
        else ([],(b.group && (allmulti || mcList)).toNat)
      else ([],0)) := by
  have h := did_handleFrameOrig (c := b.toBr PortState.orig (lookup brMacHashOrig b source db))
    (fun _ => rfl) (d := ⟨true,false,allmulti,mcList,false⟩) rfl rfl rfl
    (show 0 < (Setup.start source.portNo).made from one_pos) rfl
  simp only [shouldDeliverOrig_toBr,toBr_state,orig_eq_forwarding_iff,Ne,orig_eq_disabled_iff]
    at h
  exact h

/-- Both versions send a frame on the same ports and pass up the same number of copies, except
that the original passes one up, for a device that takes group addresses, before it looks at the
state of the port. -/
theorem handleFrame_agrees {fast orig : Db} (h : Same fast orig) (allmulti mcList : Bool) :
    sent (runFast b source fast) =
      sent (runOrig ⟨true,false,allmulti,mcList,false⟩ b source orig) ∧
    ups (runOrig ⟨true,false,allmulti,mcList,false⟩ b source orig) =
      ups (runFast b source fast)+
        if b.data 6 &&& 1 = 0 ∧ b.group ∧ (allmulti || mcList) ∧
          b.state source.portNo ≠ .disabled ∧ b.state source.portNo ≠ .forwarding then 1
        else 0 := by
  have hfast := did_runFast b source fast
  have horig := did_runOrig b source allmulti mcList orig
  rw [hfast.sent,hfast.ups,horig.sent,horig.ups,h.lookup b source]
  by_cases hf : b.state source.portNo = .forwarding
  · simp [hf]
  by_cases hd : b.state source.portNo = .disabled
  · simp [hd]
  by_cases h6 : b.data 6 &&& 1 = 0
  · cases hg : b.group <;> cases allmulti <;> cases mcList <;> simp [hf,hd,h6]
  · simp [hf,h6]

end Runs

def twoPorts (ingress other : PortState) : Setup :=
  { portList := [1,2], state := fun p => if p = 1 then ingress else other,
    data := fun i => if i < 6 then 0xff else 0, filterFrame := fun _ => false,
    allocEntry := true, allocPort := true, kmalloc := true }

def portOne : Port := ⟨⟨[0x65,0x30],by decide,by decide⟩,1⟩

def emptyDb : Db := ⟨fun _ => [],1000,300,15,false⟩

lemma same_emptyDb : Same emptyDb emptyDb := ⟨fun _ => rfl,rfl⟩

/-- A broadcast between forwarding ports goes out and up in both versions. -/
theorem handleFrame_agrees_broadcast :
    sent (runFast (twoPorts .forwarding .forwarding) portOne emptyDb) = [2] ∧
    ups (runOrig ⟨true,false,true,false,false⟩ (twoPorts .forwarding .forwarding) portOne emptyDb) =
      ups (runFast (twoPorts .forwarding .forwarding) portOne emptyDb) := by
  have h := handleFrame_agrees (twoPorts .forwarding .forwarding) portOne same_emptyDb true false
  exact ⟨by decide,h.2⟩

/-- A broadcast from a learning port goes up the stack in the original only. -/
theorem handleFrame_differs_learning :
    ups (runOrig ⟨true,false,true,false,false⟩ (twoPorts .learning .forwarding) portOne
      emptyDb) = 1 ∧
      ups (runFast (twoPorts .learning .forwarding) portOne emptyDb) = 0 := by
  decide

end DslG624t.Bridge.FastPath
