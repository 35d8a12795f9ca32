import DslG624t.Ip.Receive
import DslG624t.Lib.Monitor

/-!
# Packets that are forwarded

`ip_forward` of the fast path, with `ip_forward_process_options` and `ip_call_ra_chain`.
-/

namespace DslG624t.Ip

open List Monitor

/-- What happens to a buffer; buffer 0 is the one that `ip_forward` is called with. -/
inductive Event
  | use (skb : ℕ)
  | clone (skb new : ℕ)
  | rawRcv (skb : ℕ)
  | defrag (skb : ℕ) (new : Option ℕ)
  | free (skb : ℕ)
  | forward (skb : ℕ)
  deriving DecidableEq

def Event.life : Event → List LifeEv
  | .use skb => [.touch skb]
  | .clone skb new => [.touch skb,.born new]
  | .rawRcv skb => [.drop skb]
  | .defrag skb none => [.drop skb]
  | .defrag skb (some new) => [.drop skb,.born new]
  | .free skb => [.drop skb]
  | .forward skb => [.drop skb]

structure Rtable where
  rtDst : ℕ
  rtGateway : ℕ
  doRedirect : Bool
  pmtu : ℕ

structure Buf where
  skb : Skb
  rt : Rtable

structure RaSock where
  num : ℕ
  boundDevIf : ℕ

/-- The sockets in `ip_ra_chain`, the interface, the clones that fail, whether a fragment completes
its datagram, and what the memory of a buffer holds once it is consumed. -/
structure FwdEnv where
  chain : List (Option RaSock)
  ifindex : ℕ
  cloneFails : ℕ → Bool
  completes : Bool
  stale : Buf

def RaSock.Wants (env : FwdEnv) (skb : Skb) (sk : RaSock) : Prop :=
  sk.num = skb.protocol ∧ (sk.boundDevIf = 0 ∨ sk.boundDevIf = env.ifindex)

instance (env : FwdEnv) (skb : Skb) (sk : RaSock) : Decidable (sk.Wants env skb) :=
  inferInstanceAs (Decidable (_ ∧ _))

/-- The events so far, the memory of buffer 0 and the number of buffers. -/
structure World where
  trace : List Event
  buf : Buf
  made : ℕ

variable (env : FwdEnv)

def World.emit (w : World) (ev : Event) : World :=
  { w with
    trace := w.trace ++ [ev]
    buf := if .drop 0 ∈ ev.life then env.stale else w.buf }

def raClone (last : Bool) (cur : ℕ) (w : World) : World :=
  if last then
    if env.cloneFails w.made then w.emit env (.use cur)
    else
      { (w.emit env (.clone cur w.made)).emit env (.rawRcv w.made) with made := w.made+1 }
  else w

/-- The loop over the sockets: `cur` is the buffer now, `frag` whether it is a fragment, and
`last` whether a socket wants it. -/
def raLoop (skb : Skb) : List (Option RaSock) → ℕ → Bool → Bool → World → Bool × World
  | [], cur, _, last, w => if last then (true,w.emit env (.rawRcv cur)) else (false,w)
  | none :: chain, cur, frag, last, w => raLoop skb chain cur frag last w
  | some sk :: chain, cur, frag, last, w =>
    if sk.Wants env skb then
      if frag then
        if env.completes then
          let new := w.made
          let w := { w.emit env (.defrag cur (some new)) with made := new+1 }
          raLoop skb chain new false true (raClone env last new w)
        else (true,w.emit env (.defrag cur none))
      else raLoop skb chain cur false true (raClone env last cur w)
    else raLoop skb chain cur frag last w

def ipCallRaChain (w : World) : Bool × World :=
  let w := w.emit env (.use 0)
  raLoop env w.buf.skb env.chain 0 (w.buf.skb.fragOff &&& 0x3FFF ≠ 0) false w

def ipForwardErrorHandler (w : World) : World := (w.emit env (.use 0)).emit env (.free 0)

/-- The part behind the router alert: `NET_RX_SUCCESS` is 0 and `NET_RX_DROP` is 1. -/
def routeOptions (w : World) : ℕ × World :=
  let w := w.emit env (.use 0)
  if w.buf.skb.opt.isStrictroute ∧ w.buf.rt.rtDst ≠ w.buf.rt.rtGateway then
    (1,(w.emit env (.use 0)).emit env (.free 0))
  else if w.buf.rt.doRedirect ∧ w.buf.skb.opt.srr = 0 then (0,w.emit env (.use 0))
  else (0,w)

def ipForwardProcessOptions (w : World) : ℕ × World :=
  if w.buf.skb.opt.routerAlert then
    match ipCallRaChain env w with
    | (true,w) => (0,w)
    | (false,w) => routeOptions env w
  else routeOptions env w

/-- The part behind the options: `IP_DF` forbids to fragment. -/
def forwardOn (retVal : ℕ) (w : World) : World :=
  let w := w.emit env (.use 0)
  if retVal = 0 ∧ 1 < w.buf.skb.ttl then
    let w := w.emit env (.use 0)
    if w.buf.rt.pmtu < w.buf.skb.len ∧ w.buf.skb.fragOff &&& 0x4000 ≠ 0 then
      ipForwardErrorHandler env w
    else w.emit env (.forward 0)
  else if w.buf.skb.ttl ≤ 1 then ipForwardErrorHandler env w
  else w

def ipForward (buf : Buf) : World :=
  let w := World.emit env ⟨[],buf,1⟩ (.use 0)
  if w.buf.skb.opt.optlen ≠ 0 then
    let (retVal,w) := ipForwardProcessOptions env w
    forwardOn env retVal w
  else forwardOn env 0 w

def World.life (w : World) : List LifeEv := w.trace.flatMap Event.life

def World.Linear (w : World) : Prop := Consumed w.life

def World.Has (w : World) (S : Set ℕ) : Prop := Held w.life w.made S

variable {env} {w : World} {S : Set ℕ} {b : ℕ} {cur : ℕ} {skb : Skb} {chain : List (Option RaSock)}

@[simp]
lemma World.life_emit (ev : Event) : (w.emit env ev).life = w.life ++ ev.life := by
  simp [life,emit,flatMap_append]

@[simp]
lemma World.buf_emit_use (b : ℕ) : (w.emit env (.use b)).buf = w.buf := by
  simp [emit,Event.life]

namespace World.Has

variable (env) in
lemma use (h : w.Has S) (hb : b ∈ S) : (w.emit env (.use b)).Has S := by
  rw [Has,life_emit]
  exact h.touch hb

variable (env) in
lemma consume (h : w.Has {b}) {ev : Event} (hev : ev.life = [.drop b]) : (w.emit env ev).Has ∅ := by
  rw [Has,life_emit,hev]
  exact h.drop_only

lemma linear (h : w.Has ∅) : w.Linear := h.consumed

end World.Has

lemma raClone_has (h : w.Has {cur}) (last : Bool) : (raClone env last cur w).Has {cur} := by
  unfold raClone
  split
  · split
    · exact h.use env rfl
    · have hclone := (h.touch (b := cur) rfl).born_drop
      simpa [World.Has,World.life,World.emit,Event.life] using hclone
  · exact h

lemma raLoop_not_taken (h : ∀ sk, some sk ∈ chain → ¬ sk.Wants env skb) (cur : ℕ) (frag : Bool)
    (w : World) :
    raLoop env skb chain cur frag false w = (false,w) := by
  induction chain with
  | nil => rfl
  | cons sk chain ih =>
    have htail := ih fun sk hsk => h sk (mem_cons_of_mem _ hsk)
    cases sk with
    | none => exact htail
    | some sk => rw [raLoop,if_neg (h sk mem_cons_self),htail]

lemma raLoop_taken {frag last : Bool} (h : w.Has {cur})
    (hwants : last = true ∨ ∃ sk, some sk ∈ chain ∧ sk.Wants env skb) :
    ∃ w', raLoop env skb chain cur frag last w = (true,w') ∧ w'.Has ∅ := by
  induction chain generalizing cur frag last w with
  | nil =>
    have hlast : last = true := by simpa using hwants
    rw [raLoop,if_pos hlast]
    exact ⟨_,rfl,h.consume env rfl⟩
  | cons sk chain ih =>
    cases sk with
    | none => exact ih h (by simpa using hwants)
    | some sk =>
      rw [raLoop]
      split
      next hsk =>
        split
        · split
          · have hnew := h.drop_only.born
            refine ih (raClone_has ?_ last) (.inl rfl)
            simpa [World.Has,World.life,World.emit,Event.life] using hnew
          · exact ⟨_,rfl,h.consume env rfl⟩
        · exact ih (raClone_has h last) (.inl rfl)
      next hsk =>
        refine ih h ?_
        rcases hwants with hlast | ⟨sk',hmem,hsk'⟩
        · exact .inl hlast
        refine .inr ⟨sk',?_,hsk'⟩
        rcases mem_cons.mp hmem with heq | hmem
        · cases heq
          exact absurd hsk' hsk
        · exact hmem

lemma ipCallRaChain_taken (h : w.Has {0})
    (hwants : ∃ sk, some sk ∈ env.chain ∧ sk.Wants env w.buf.skb) :
    ∃ w', ipCallRaChain env w = (true,w') ∧ w'.Has ∅ := by
  simp only [ipCallRaChain,World.buf_emit_use]
  exact raLoop_taken (h.use env rfl) (.inr hwants)

lemma ipCallRaChain_not_taken (h : ∀ sk, some sk ∈ env.chain → ¬ sk.Wants env w.buf.skb) :
    ipCallRaChain env w = (false,w.emit env (.use 0)) := by
  simp only [ipCallRaChain,World.buf_emit_use]
  exact raLoop_not_taken h _ _ _

def Alerted (env : FwdEnv) (skb : Skb) : Prop :=
  skb.opt.routerAlert = true ∧ ∃ sk, some sk ∈ env.chain ∧ sk.Wants env skb

def Strayed (buf : Buf) : Prop :=
  buf.skb.opt.isStrictroute = true ∧ buf.rt.rtDst ≠ buf.rt.rtGateway

variable (env) in
lemma routeOptions_strayed (h : w.Has {0}) (hstray : Strayed w.buf) :
    ∃ w', routeOptions env w = (1,w') ∧ w'.Has ∅ := by
  rw [Strayed] at hstray
  simp only [routeOptions,World.buf_emit_use]
  rw [if_pos hstray]
  exact ⟨_,rfl,((h.use env rfl).use env rfl).consume env rfl⟩

variable (env) in
lemma routeOptions_kept (h : w.Has {0}) (hstray : ¬ Strayed w.buf) :
    ∃ w', routeOptions env w = (0,w') ∧ w'.Has {0} := by
  rw [Strayed] at hstray
  simp only [routeOptions,World.buf_emit_use]
  rw [if_neg hstray]
  split
  · exact ⟨_,rfl,(h.use env rfl).use env rfl⟩
  · exact ⟨_,rfl,h.use env rfl⟩

lemma ipForwardProcessOptions_alerted (h : w.Has {0}) (halert : Alerted env w.buf.skb) :
    ∃ w', ipForwardProcessOptions env w = (0,w') ∧ w'.Has ∅ := by
  obtain ⟨hra,hwants⟩ := halert
  obtain ⟨w',heq,hw'⟩ := ipCallRaChain_taken h hwants
  rw [ipForwardProcessOptions,if_pos hra,heq]
  exact ⟨w',rfl,hw'⟩

lemma ipForwardProcessOptions_not_alerted (h : w.Has {0}) (halert : ¬ Alerted env w.buf.skb) :
    ∃ w', ipForwardProcessOptions env w = routeOptions env w' ∧ w'.Has {0} ∧ w'.buf = w.buf := by
  rw [ipForwardProcessOptions]
  split
  next hra =>
    rw [ipCallRaChain_not_taken fun sk hsk hwants => halert ⟨hra,sk,hsk,hwants⟩]
    exact ⟨_,rfl,h.use env rfl,World.buf_emit_use 0⟩
  · exact ⟨w,rfl,h,rfl⟩

lemma forwardOn_linear (h : w.Has {0}) : (forwardOn env 0 w).Linear := by
  have herror {w : World} (h : w.Has {0}) : (ipForwardErrorHandler env w).Linear :=
    ((h.use env rfl).consume env rfl).linear
  simp only [forwardOn]
  split
  · split
    · exact herror ((h.use env rfl).use env rfl)
    · exact (((h.use env rfl).use env rfl).consume env rfl).linear
  next hc =>
    have httl : (w.emit env (.use 0)).buf.skb.ttl ≤ 1 := by
      by_contra hgt
      exact hc ⟨trivial,by omega⟩
    rw [if_pos httl]
    exact herror (h.use env rfl)

lemma forwardOn_life (retVal : ℕ) :
    ∃ tr, (forwardOn env retVal w).life = w.life ++ .touch 0 :: tr := by
  simp only [forwardOn,ipForwardErrorHandler]
  split
  · split <;> exact ⟨_,by simp only [World.life_emit,Event.life,append_assoc]; rfl⟩
  · split <;> exact ⟨_,by simp only [World.life_emit,Event.life,append_assoc]; rfl⟩

lemma forwardOn_not_linear (h : w.Has ∅) (retVal : ℕ) : ¬ (forwardOn env retVal w).Linear := by
  obtain ⟨tr,htr⟩ : ∃ tr, (forwardOn env retVal w).life = w.life ++ .touch 0 :: tr :=
    forwardOn_life retVal
  rw [World.Linear,htr]
  exact h.not_consumed_touch (Set.notMem_empty 0) tr

lemma processed_linear_iff (h : w.Has {0}) :
    (forwardOn env (ipForwardProcessOptions env w).1 (ipForwardProcessOptions env w).2).Linear ↔
      ¬ Alerted env w.buf.skb ∧ ¬ Strayed w.buf := by
  by_cases halert : Alerted env w.buf.skb
  · obtain ⟨w',heq,hw'⟩ := ipForwardProcessOptions_alerted h halert
    rw [heq]
    exact iff_of_false (forwardOn_not_linear hw' 0) fun hc => hc.1 halert
  obtain ⟨w',heq,hw',hbuf⟩ := ipForwardProcessOptions_not_alerted h halert
  rw [heq,← hbuf]
  by_cases hstray : Strayed w'.buf
  · obtain ⟨w'',heq',hw''⟩ := routeOptions_strayed env hw' hstray
    rw [heq']
    exact iff_of_false (forwardOn_not_linear hw'' 1) fun hc => hc.2 hstray
  · obtain ⟨w'',heq',hw''⟩ := routeOptions_kept env hw' hstray
    rw [heq']
    exact iff_of_true (forwardOn_linear hw'') ⟨hbuf ▸ halert,hstray⟩

theorem ipForward_consumed_iff (env : FwdEnv) (buf : Buf) :
    (ipForward env buf).Linear ↔
      (buf.skb.opt.optlen ≠ 0 → ¬ Alerted env buf.skb ∧ ¬ Strayed buf) := by
  have hstart : (World.emit env ⟨[],buf,1⟩ (.use 0)).Has {0} :=
    World.Has.use env (w := ⟨[],buf,1⟩) held_nil rfl
  have hbuf : (World.emit env ⟨[],buf,1⟩ (.use 0)).buf = buf := World.buf_emit_use 0
  simp only [ipForward]
  generalize World.emit env ⟨[],buf,1⟩ (.use 0) = w at hstart hbuf
  subst hbuf
  split
  next hopt =>
    rw [processed_linear_iff hstart]
    exact ⟨fun h _ => h,fun h => h hopt⟩
  next hopt => exact iff_of_true (forwardOn_linear hstart) fun h => absurd h hopt

/-- A packet of protocol 2 with the router alert option, on its way to the next hop. -/
def alertBuf : Buf where
  skb :=
    { mem := [0x46,0,0,24,0,0,0,0,64,2] ++ replicate 50 0
      len := 24
      ipSummed := .none
      pktType := .host
      dst := some .forward
      opt := ⟨4,0,false,true⟩
      header_le := by decide
      len_le := by decide }
  rt := ⟨1,1,false,1500⟩

def alertEnv : FwdEnv := ⟨[some ⟨2,0⟩],1,fun _ => false,true,alertBuf⟩

/-- The socket gets the packet, and it is forwarded too. -/
theorem ipForward_consumed_fails_alert :
    (ipForward alertEnv alertBuf).trace =
      [.use 0,.use 0,.rawRcv 0,.use 0,.use 0,.forward 0] ∧
      ¬ (ipForward alertEnv alertBuf).Linear := by
  have htrace : (ipForward alertEnv alertBuf).trace =
      [.use 0,.use 0,.rawRcv 0,.use 0,.use 0,.forward 0] := by decide
  refine ⟨htrace,?_⟩
  have hhead : Held ([.touch 0] ++ [.touch 0] ++ [.drop 0]) 1 ∅ :=
    ((held_nil.touch rfl).touch rfl).drop_only
  rw [World.Linear,World.life,htrace]
  exact hhead.not_consumed_touch (Set.notMem_empty 0) [.touch 0,.drop 0]

end DslG624t.Ip
