import DslG624t.Bridge.Fdb

/-!
# The bridge frame filter

The commands and the per-frame check of `br_filter.c`.
-/

namespace DslG624t.Bridge

open CString Ethernet List

abbrev PortField := { b : Bytes // b.length = 10 }

/-- `struct __br_filter_entry`, the rule as user space hands it in. -/
structure FilterInput where
  sport : PortField
  dport : PortField
  srcMacAddr : Mac
  dstMacAddr : Mac
  proto : UInt16
  accessType : UInt8
  deriving DecidableEq

/-- `struct bridge_fw_db_entry`, the rule as it is linked into `blacklist`. -/
structure FilterEntry where
  sport : PortField
  dport : PortField
  srcMacAddr : Mac
  dstMacAddr : Mac
  ethProto : UInt16
  accessType : UInt8
  matchCheck : UInt8
  framesMatched : UInt32
  deriving DecidableEq

def portMem (dport : PortField) (src dst : Mac) (proto : UInt16) (accessType : UInt8) : Bytes :=
  dport.val ++ src.bytes ++ dst.bytes ++
    [proto.toUInt8,(proto >>> 8).toUInt8,accessType]

def FilterEntry.dportMem (e : FilterEntry) : Bytes :=
  portMem e.dport e.srcMacAddr e.dstMacAddr e.ethProto e.accessType

def FilterEntry.sportMem (e : FilterEntry) : Bytes := e.sport.val ++ e.dportMem

def FilterInput.dportMem (f : FilterInput) : Bytes :=
  portMem f.dport f.srcMacAddr f.dstMacAddr f.proto f.accessType

def FilterInput.sportMem (f : FilterInput) : Bytes := f.sport.val ++ f.dportMem

/-- The frame as the filter sees it: the port it is about to leave through and
its Ethernet header, `h_proto` as loaded from the wire. -/
structure Frame where
  brPort : Port
  hDest : Mac
  hSource : Mac
  hProto : UInt16
  deriving DecidableEq

/-- The fields of `struct net_bridge` the filter works on. -/
structure NetBridge where
  fdb : Fdb
  blacklist : List FilterEntry
  brFilterActive : Bool

def MATCH_PROTO : UInt8 := 1
def MATCH_SRC_MAC : UInt8 := 2
def MATCH_DST_MAC : UInt8 := 4
def MATCH_SPORT : UInt8 := 8
def MATCH_DPORT : UInt8 := 16

def macSpecified (a : Mac) : Bool := a.bytes.any (· ≠ 0)

/-- The `record_match` computation at the end of `br_add_filter_entry`. -/
def FilterEntry.recordMatch (e : FilterEntry) : UInt8 :=
  let r : UInt8 := 0
  let r := if macSpecified e.dstMacAddr then r ||| MATCH_DST_MAC else r
  let r := if macSpecified e.srcMacAddr then r ||| MATCH_SRC_MAC else r
  let r := if e.ethProto ≠ 0 then r ||| MATCH_PROTO else r
  let r := if strcmp e.sportMem (ofString "0") ≠ 0 then r ||| MATCH_SPORT else r
  if strcmp e.dportMem (ofString "0") ≠ 0 then r ||| MATCH_DPORT else r

structure Outcomes where
  inputAlloc : Bool
  copyOk : Bool
  entryAlloc : Bool

/-- The zeroed entry with the rule copied in. -/
def FilterEntry.ofInput (f : FilterInput) : FilterEntry where
  sport := f.sport
  dport := f.dport
  srcMacAddr := f.srcMacAddr
  dstMacAddr := f.dstMacAddr
  ethProto := htons f.proto
  accessType := f.accessType
  matchCheck := 0
  framesMatched := 0

/-- `br_add_filter_entry`. The walk to the last link makes it an append, also on
the empty list, where the new entry is found as its own predecessor. -/
def brAddFilterEntry (br : NetBridge) (o : Outcomes) (f : FilterInput) : ℤ × NetBridge :=
  if !o.inputAlloc then (-1,br)
  else if !o.copyOk then (-1,br)
  else if !o.entryAlloc then (-1,br)
  else
    let new := FilterEntry.ofInput f
    let new := { new with matchCheck := new.recordMatch }
    (0,{ br with blacklist := br.blacklist ++ [new] })

def macTest (a b : Mac) : Bool :=
  a.b0 == b.b0 && (a.b4.toUInt32 &&& 0x0000ffff) == (b.b4.toUInt32 &&& 0x0000ffff)

def deletes (f : FilterInput) (e : FilterEntry) : Bool :=
  htons e.ethProto == f.proto && strcmp e.dportMem f.dportMem == 0 &&
    strcmp e.sportMem f.sportMem == 0 && macTest e.srcMacAddr f.srcMacAddr &&
    macTest e.dstMacAddr f.dstMacAddr

def brDelFilterEntry (br : NetBridge) (o : Outcomes) (f : FilterInput) : ℤ × NetBridge :=
  if !o.inputAlloc then (-1,{ br with brFilterActive := false })
  else if !o.copyOk then (-1,{ br with brFilterActive := false })
  else (0,{ br with blacklist := br.blacklist.eraseP (deletes f) })

def brFlushFilter (br : NetBridge) : ℤ × NetBridge :=
  match br.blacklist with
  | [] => (0,{ br with brFilterActive := false })
  | _ :: _ => (0,{ br with blacklist := [] })

inductive Hit where
  | passthru
  | freeOut
  deriving DecidableEq, Repr

def policyHit (policy : UInt8) : Hit := if policy = 1 then .passthru else .freeOut

/-- The `switch(search_entry->match_check)`: `none` is `break`. -/
def filterSwitch (e : FilterEntry) (skb : Frame) (dst : FdbEntry) : Option Hit :=
  let policy := e.accessType
  let hit (c : Bool) : Option Hit := if c then some (policyHit policy) else none
  let sport := strcmp e.sportMem dst.dst.dev.name == 0
  let dport := strcmp e.dportMem skb.brPort.dev.name == 0
  let proto := e.ethProto == skb.hProto
  let smac := macTest e.srcMacAddr skb.hSource
  let dmac := macTest e.dstMacAddr skb.hDest
  match e.matchCheck.toNat with
  | 8 => hit sport
  | 9 => hit (sport && proto)
  | 10 => hit (sport && smac)
  | 11 => hit (sport && smac && proto)
  | 12 => hit (sport && dmac)
  | 13 => hit (sport && proto && dmac)
  | 14 => hit (sport && smac && dmac)
  | 15 => hit (sport && proto && smac && dmac)
  | 16 => hit dport
  | 17 => hit (dport && proto)
  | 18 => hit (dport && smac)
  | 19 => hit (dport && smac && proto)
  | 20 => hit (dport && dmac)
  | 21 => hit (dport && proto && dmac)
  | 22 => hit (dport && smac && dmac)
  | 23 => hit (dport && proto && smac && dmac)
  -- From here on both ports are meant to be compared; the source repeats `dport`.
  | 24 => hit (dport && dport)
  | 25 => hit (dport && dport && proto)
  | 26 => hit (dport && dport && smac)
  | 27 => hit (dport && dport && smac && proto)
  | 28 => hit (dport && dport && dmac)
  | 29 => hit (dport && dport && proto && dmac)
  | 30 => hit (dport && dport && smac && dmac)
  | 31 => hit (dport && dport && proto && smac && dmac)
  -- A rule with no field set has its own two tests and may fall through both.
  | 0 => if policy = 0 then some .freeOut else if policy = 1 then some .passthru else none
  | 1 => hit proto
  | 2 => hit smac
  | 3 => if proto then hit smac else none
  | 4 => hit dmac
  | 5 => if proto then hit dmac else none
  | 6 => if smac then hit dmac else none
  | 7 => if proto then (if smac then hit dmac else none) else none
  | _ => none

def FilterEntry.bump (e : FilterEntry) : FilterEntry :=
  { e with framesMatched := e.framesMatched+1 }

/-- The `while (search_entry != NULL)` loop: verdict and the table with its counters. -/
def filterLoop (skb : Frame) (dst : FdbEntry) : List FilterEntry → ℤ × List FilterEntry
  | [] => (0,[])
  | e :: es =>
    match filterSwitch e skb dst with
    | some .passthru => (0, e.bump :: es)
    | some .freeOut => (1, e.bump :: es)
    | none =>
      let r := filterLoop skb dst es
      (r.1, e :: r.2)

/-- `br_filter_frame`: 0 lets the frame pass, 1 drops it. -/
def brFilterFrame (br : NetBridge) (skb : Frame) : ℤ × NetBridge :=
  match brFdbGet br.fdb skb.hSource with
  | none => (0,br)
  | some dst =>
    if br.brFilterActive then
      let r := filterLoop skb dst br.blacklist
      (r.1,{ br with blacklist := r.2 })
    else (0,br)

/-- A bridge whose rules all came in through `br_add_filter_entry`: what any sequence of
commands and frames makes of an empty table, while the rest of the bridge changes freely. -/
inductive Installed : NetBridge → Prop where
  | empty {br : NetBridge} (h : br.blacklist = []) : Installed br
  | add {br : NetBridge} (h : Installed br) (o : Outcomes) (f : FilterInput) :
    Installed (brAddFilterEntry br o f).2
  | del {br : NetBridge} (h : Installed br) (o : Outcomes) (f : FilterInput) :
    Installed (brDelFilterEntry br o f).2
  | flush {br : NetBridge} (h : Installed br) : Installed (brFlushFilter br).2
  | frame {br : NetBridge} (h : Installed br) (skb : Frame) : Installed (brFilterFrame br skb).2
  | other {br br' : NetBridge} (h : Installed br) (hb : br'.blacklist = br.blacklist) :
    Installed br'

def FilterEntry.Consistent (e : FilterEntry) : Prop := e.matchCheck = e.recordMatch

variable {br : NetBridge}

lemma FilterEntry.Consistent.bump {e : FilterEntry} (h : e.Consistent) : e.bump.Consistent := h

lemma consistent_filterLoop {skb : Frame} {dst : FdbEntry} {es : List FilterEntry}
    (h : ∀ e ∈ es, e.Consistent) : ∀ e ∈ (filterLoop skb dst es).2, e.Consistent := by
  induction es with
  | nil => simp [filterLoop]
  | cons a es ih =>
    obtain ⟨ha,hes⟩ := forall_mem_cons.mp h
    have hb := ha.bump
    simp only [filterLoop]
    split
    · exact forall_mem_cons.mpr ⟨hb,hes⟩
    · exact forall_mem_cons.mpr ⟨hb,hes⟩
    · exact forall_mem_cons.mpr ⟨ha,ih hes⟩

lemma consistent_brFilterFrame (skb : Frame) (h : ∀ e ∈ br.blacklist, e.Consistent) :
    ∀ e ∈ (brFilterFrame br skb).2.blacklist, e.Consistent := by
  unfold brFilterFrame
  split
  · exact h
  · split
    · exact consistent_filterLoop h
    · exact h

lemma consistent_brAddFilterEntry (o : Outcomes) (f : FilterInput)
    (h : ∀ e ∈ br.blacklist, e.Consistent) :
    ∀ e ∈ (brAddFilterEntry br o f).2.blacklist, e.Consistent := by
  unfold brAddFilterEntry
  split
  · exact h
  split
  · exact h
  split
  · exact h
  · simp only [mem_append,mem_singleton]
    rintro e (he | rfl)
    · exact h e he
    · rfl

lemma consistent_brDelFilterEntry (o : Outcomes) (f : FilterInput)
    (h : ∀ e ∈ br.blacklist, e.Consistent) :
    ∀ e ∈ (brDelFilterEntry br o f).2.blacklist, e.Consistent := by
  unfold brDelFilterEntry
  split
  · exact h
  · split
    · exact h
    · exact fun e he => h e (mem_of_mem_eraseP he)

lemma blacklist_brFlushFilter (br : NetBridge) : (brFlushFilter br).2.blacklist = [] := by
  unfold brFlushFilter
  split
  · next h => exact h
  · rfl

lemma Installed.consistent (h : Installed br) : ∀ e ∈ br.blacklist, e.Consistent := by
  induction h with
  | empty h => simp [h]
  | add _ o f ih => exact consistent_brAddFilterEntry o f ih
  | del _ o f ih => exact consistent_brDelFilterEntry o f ih
  | @flush br _ _ => simp [blacklist_brFlushFilter br]
  | frame _ skb ih => exact consistent_brFilterFrame skb ih
  | other _ hb ih => rwa [hb]

end DslG624t.Bridge
