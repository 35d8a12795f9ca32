import Mathlib

/-!
# Connection tracking of ESP

The SPI of the opposite direction is not in an ESP packet. `esp_new` guesses it from the order of
new connections, with one state for all hosts.
-/

namespace DslG624t.Ip.Esp

open List

inductive State
  | free
  | out
  | in'
  deriving DecidableEq

structure Tuple where
  srcIp : BitVec 32
  dstIp : BitVec 32
  spi : BitVec 32
  deriving DecidableEq

structure Conntrack where
  original : Tuple
  reply : Tuple
  deriving DecidableEq

structure Packet where
  saddr : BitVec 32
  daddr : BitVec 32
  spi : BitVec 32
  deriving DecidableEq

def espInvertTuple (tuple orig : Tuple) : Tuple :=
  { tuple with spi := orig.spi }

def espPktToTuple (datah : BitVec 32) (tuple : Tuple) : Tuple :=
  { tuple with spi := datah }

def Packet.tuple (p : Packet) : Tuple :=
  espPktToTuple p.spi ⟨p.saddr,p.daddr,0⟩

/-- The connection as `init_conntrack` gives it to `esp_new`. -/
def Packet.conntrack (p : Packet) : Conntrack :=
  ⟨p.tuple,espInvertTuple ⟨p.daddr,p.saddr,0⟩ p.tuple⟩

/-- The variables of the module. -/
structure Pairing where
  state : State := .free
  outTuple : Tuple := ⟨0,0,0⟩
  inTuple : Tuple := ⟨0,0,0⟩

def espNew (e : Pairing) (ct : Conntrack) : Pairing × Conntrack :=
  match e.state with
  | .free => ({ e with outTuple := ct.original, state := .out },ct)
  | .out =>
    if ct.original.srcIp = e.outTuple.dstIp then
      ({ e with inTuple := ct.original, state := .in' },ct)
    else if ct.original.srcIp ≠ e.outTuple.srcIp then ({ e with outTuple := ct.original },ct)
    else (e,ct)
  | .in' =>
    if ct.original.spi = e.outTuple.spi ∧ ct.original.srcIp = e.outTuple.srcIp then
      (⟨.free,{ e.outTuple with spi := 0, dstIp := 0 },{ e.inTuple with spi := 0, dstIp := 0 }⟩,
        { ct with reply := { ct.reply with spi := e.inTuple.spi } })
    else (⟨.out,ct.original,{ e.inTuple with spi := 0, dstIp := 0 }⟩,ct)

/-- The variables after new connections with these first packets. -/
def after (earlier : List Packet) : Pairing :=
  earlier.foldl (fun e p => (espNew e p.conntrack).1) {}

/-- The destination of a packet with the source and the SPI of the first one of a pair is that of
the first one. -/
def Fits (e : Pairing) (p : Packet) : Prop :=
  e.state = .in' → p.spi = e.outTuple.spi → p.saddr = e.outTuple.srcIp → p.daddr = e.outTuple.dstIp

instance (e : Pairing) (p : Packet) : Decidable (Fits e p) := inferInstanceAs (Decidable (_ → _))

/-- The tuples are of earlier packets: the first one of a pair, and after it one from its
destination. -/
def Pairing.Knows (e : Pairing) (earlier : List Packet) : Prop :=
  match e.state with
  | .free => True
  | .out => ∃ x ∈ earlier, e.outTuple = x.tuple
  | .in' => ∃ x y, [x,y] <+ earlier ∧ e.outTuple = x.tuple ∧ e.inTuple = y.tuple ∧ y.saddr = x.daddr

lemma Pairing.Knows.espNew {e : Pairing} {earlier : List Packet} (h : e.Knows earlier) (p : Packet) :
    (espNew e p.conntrack).1.Knows (earlier ++ [p]) := by
  obtain ⟨state,out,inn⟩ := e
  have hlast : ∃ x ∈ earlier ++ [p], p.tuple = x.tuple := ⟨p,by simp,rfl⟩
  cases state with
  | free => exact hlast
  | out =>
    obtain ⟨x,hx,rfl⟩ : ∃ x ∈ earlier, out = x.tuple := h
    simp only [Esp.espNew]
    split
    next hsrc => exact ⟨x,p,(singleton_sublist.mpr hx).append (Sublist.refl [p]),rfl,rfl,hsrc⟩
    split
    · exact hlast
    · exact ⟨x,mem_append_left _ hx,rfl⟩
  | in' =>
    simp only [Esp.espNew]
    split
    · trivial
    · exact hlast

lemma knows_after (earlier : List Packet) : (after earlier).Knows earlier := by
  induction earlier using reverseRecOn with
  | nil => trivial
  | append_singleton earlier p ih =>
    rw [after,foldl_append]
    exact ih.espNew p

/-- After any new connections, a reply SPI is assigned only if the same packet was seen before, and
the SPI is that of a later packet from its destination. -/
theorem reply_paired (earlier : List Packet) (p : Packet) (h : Fits (after earlier) p) :
    (espNew (after earlier) p.conntrack).2 = p.conntrack ∨
      ∃ y, [p,y] <+ earlier ∧ y.saddr = p.daddr ∧
        (espNew (after earlier) p.conntrack).2 =
          { p.conntrack with reply := { p.conntrack.reply with spi := y.spi } } := by
  have hknows := knows_after earlier
  generalize after earlier = e at h hknows
  obtain ⟨state,out,inn⟩ := e
  cases state with
  | free => exact .inl rfl
  | out =>
    left
    simp only [espNew]
    split_ifs <;> rfl
  | in' =>
    obtain ⟨x,y,hsub,rfl,rfl,hy⟩ : ∃ x y, [x,y] <+ earlier ∧ out = x.tuple ∧ inn = y.tuple ∧
      y.saddr = x.daddr := hknows
    by_cases hp : p.spi = x.spi ∧ p.saddr = x.saddr
    · have hdst : p.daddr = x.daddr := h rfl hp.1 hp.2
      obtain rfl : p = x := by cases p; cases x; simp_all
      exact .inr ⟨y,hsub,hy,congrArg Prod.snd (if_pos hp)⟩
    · exact .inl (congrArg Prod.snd (if_neg hp))

theorem reply_paired_tunnel :
    (espNew (after [⟨1,2,5⟩,⟨2,1,9⟩]) (Packet.mk 1 2 5).conntrack).2.reply.spi = 9 ∧
    ∃ y, [Packet.mk 1 2 5,y] <+ [⟨1,2,5⟩,⟨2,1,9⟩] ∧ y.saddr = 2 := by
  obtain h | ⟨y,hsub,hy,-⟩ := reply_paired [⟨1,2,5⟩,⟨2,1,9⟩] ⟨1,2,5⟩ (by decide)
  · exact absurd h (by decide)
  · exact ⟨by decide,y,hsub,hy⟩

/-- Host 1 opens connections with one SPI to hosts 2 and 3, and the one to host 3 gets the SPI of
host 2. -/
theorem reply_of_other_host :
    (espNew (after [⟨1,2,5⟩,⟨2,1,9⟩]) (Packet.mk 1 3 5).conntrack).2.reply =
      ⟨3,1,9⟩ ∧ ∀ x ∈ [Packet.mk 1 2 5,⟨2,1,9⟩], x ≠ ⟨1,3,5⟩ ∧ x.saddr ≠ 3 := by
  decide

/-- How many of the new connections get a reply SPI that is not their own. -/
def paired : Pairing → List Packet → ℕ
  | _, [] => 0
  | e, p :: ps =>
    paired (espNew e p.conntrack).1 ps+if (espNew e p.conntrack).2 = p.conntrack then 0 else 1

def State.rank : State → ℕ
  | .free => 0
  | .out => 1
  | .in' => 2

lemma rank_espNew (e : Pairing) (ct : Conntrack) :
    (espNew e ct).1.state.rank+3*(if (espNew e ct).2 = ct then 0 else 1) ≤ e.state.rank+1 := by
  obtain ⟨state,out,inn⟩ := e
  cases state <;> grind [espNew,State.rank]

/-- At most a third of the new connections, in any order, gets a reply SPI. -/
theorem three_mul_paired_le (ps : List Packet) : 3*paired {} ps ≤ ps.length := by
  suffices ∀ e, 3*paired e ps ≤ ps.length+e.state.rank from this {}
  induction ps with
  | nil => simp [paired]
  | cons p ps ih =>
    intro e
    have hstep := rank_espNew e p.conntrack
    have hrest := ih (espNew e p.conntrack).1
    rw [paired,length_cons]
    omega

end DslG624t.Ip.Esp
