import DslG624t.Fwb.Amd

/-!
# The StrataFlash driver

`flashop_istrata_16.c` collects the bytes that are written to one line of 32 bytes and programs
the line when another one is written, or when the device is closed.
-/

namespace DslG624t.Fwb.Strata

open Function List Stores

structure State where
  flash : ℕ → UInt8
  fwbBaseAdr : ℕ
  fwbValid : ℕ
  fwbOpen : Bool
  fwbwdata : ℕ → UInt8

def fwbGetBlockSize (b : Board) (base : ℕ) : ℕ :=
  let base := base &&& 0x1fffffff ||| 0xa0000000
  if cs0Base ≤ base ∧ base < cs0Base+b.cs0Size then
    let itmp := 128*1024
    if b.emifAsyncCs0 &&& 2 ≠ 0 then itmp*2 else itmp
  else 0

def State.reset (s : State) : State :=
  { s with fwbwdata := fun _ => 0xff, fwbBaseAdr := 0xffffffff, fwbValid := 0 }

def fwbOpen (b : Board) (s : State) (base : ℕ) : Bool × State :=
  let s := { s with fwbOpen := false }
  if fwbGetBlockSize b base = 0 then (false,s) else (true,{ s.reset with fwbOpen := true })

def fwbWriteBlock (s : State) : Bool × State :=
  let flash := program s.flash s.fwbBaseAdr 32 s.fwbwdata
  (flash s.fwbBaseAdr = s.fwbwdata 0 ∧ flash (s.fwbBaseAdr+1) = s.fwbwdata 1,
    { s with flash := flash })

def writeTries : ℕ → State → Bool × State
  | 0, s => (false,s)
  | n+1, s =>
    let r := fwbWriteBlock s
    if r.1 then r else writeTries n r.2

def fwbClose (s : State) : Bool × State :=
  if !s.fwbOpen then (false,s)
  else if s.fwbValid = 0 then (true,s)
  else
    let r := writeTries 5 s
    (r.1,r.2.reset)

def line (adr : ℕ) : ℕ := adr / 32*32

def fwbWriteByte (s : State) (adr : ℕ) (cVal : UInt8) : Bool × State :=
  if !s.fwbOpen then (false,s)
  else
    let r := if line adr ≠ s.fwbBaseAdr then fwbClose s else (true,s)
    let s := r.2
    let fwbwdata := if s.fwbValid = 0 then fun i => s.flash (line adr+i) else s.fwbwdata
    (r.1,{ s with
      fwbBaseAdr := line adr
      -- an `int` that is only compared with 0
      fwbValid := (s.fwbValid+1) % 0x100000000
      fwbwdata := update fwbwdata (adr % 32) cVal })

def writes (s : State) (ws : List (ℕ × UInt8)) : State :=
  ws.foldl (fun s w => (fwbWriteByte s w.1 w.2).2) s

def session (b : Board) (s : State) (base : ℕ) (ws : List (ℕ × UInt8)) : ℕ → UInt8 :=
  (fwbClose (writes (fwbOpen b s base).2 ws)).2.flash

variable {w : ℕ × UInt8} {b : Board} {n base : ℕ}

lemma fwbGetBlockSize_eq_zero_iff (b : Board) (base : ℕ) :
    fwbGetBlockSize b base = 0 ↔ Amd.fwbGetBlockSize b base = 0 := by
  unfold fwbGetBlockSize Amd.fwbGetBlockSize
  dsimp only
  split_ifs <;> simp

def view (s : State) : ℕ → UInt8 := fun x =>
  if s.fwbValid ≠ 0 ∧ s.fwbBaseAdr ≤ x ∧ x < s.fwbBaseAdr+32 then s.fwbwdata (x-s.fwbBaseAdr)
  else s.flash x

structure Ready (s : State) : Prop where
  isOpen : s.fwbOpen = true
  below : Below (view s) s.flash

lemma view_of_valid_eq_zero {s : State} (h : s.fwbValid = 0) : view s = s.flash := by
  funext x
  unfold view
  rw [if_neg fun hx => hx.1 h]

lemma fwbWriteBlock_of_ready {s : State} (h : Ready s) (hvalid : s.fwbValid ≠ 0) :
    fwbWriteBlock s = (true,{ s with flash := view s }) := by
  have hdata : ∀ i < 32, s.fwbwdata i = view s (s.fwbBaseAdr+i) := by
    intro i hi
    unfold view
    rw [if_pos ⟨hvalid,by omega,by omega⟩,Nat.add_sub_cancel_left]
  have hflash : program s.flash s.fwbBaseAdr 32 s.fwbwdata = view s := by
    apply program_eq h.below hdata
    intro x hx
    exact if_neg fun hx' => hx hx'.2
  unfold fwbWriteBlock
  simp only [hflash,hdata 0 (by omega),hdata 1 (by omega),add_zero,and_self,decide_true]

lemma fwbClose_of_ready {s : State} (h : Ready s) :
    fwbClose s = (true,if s.fwbValid = 0 then s else State.reset { s with flash := view s }) := by
  unfold fwbClose
  by_cases hvalid : s.fwbValid = 0
  · simp [h.isOpen,hvalid]
  · simp [h.isOpen,hvalid,writeTries,fwbWriteBlock_of_ready h hvalid]

lemma fwbClose_spec {s : State} (h : Ready s) :
    (fwbClose s).2.flash = view s ∧ (fwbClose s).2.fwbValid = 0 ∧
      (fwbClose s).2.fwbOpen = true := by
  rw [fwbClose_of_ready h]
  by_cases hvalid : s.fwbValid = 0
  · rw [if_pos hvalid,view_of_valid_eq_zero hvalid]
    exact ⟨rfl,hvalid,h.isOpen⟩
  · rw [if_neg hvalid]
    exact ⟨rfl,rfl,h.isOpen⟩

def keptOf (g : List (ℕ × UInt8)) : List (ℕ × UInt8) :=
  g.drop (g.length / 0x100000000*0x100000000)

lemma keptOf_eq_nil {g : List (ℕ × UInt8)} (h : g.length % 0x100000000 = 0) : keptOf g = [] := by
  apply drop_of_length_le
  omega

lemma keptOf_concat_of_eq_zero {g : List (ℕ × UInt8)} (h : g.length % 0x100000000 = 0)
    (w : ℕ × UInt8) : keptOf (g ++ [w]) = [w] := by
  have hlen : (g ++ [w]).length / 0x100000000*0x100000000 = g.length := by
    rw [length_append,length_singleton]
    omega
  rw [keptOf,hlen,drop_left]

lemma keptOf_concat {g : List (ℕ × UInt8)} (h : (g.length+1) % 0x100000000 ≠ 0)
    (w : ℕ × UInt8) : keptOf (g ++ [w]) = keptOf g ++ [w] := by
  have hlen : (g ++ [w]).length / 0x100000000*0x100000000 =
      g.length / 0x100000000*0x100000000 := by
    rw [length_append,length_singleton]
    omega
  rw [keptOf,hlen,drop_append_of_le_length (by omega),keptOf]

/-- The driver after the writes `g` to the line `L` of the flash `F`. -/
structure InLine (F : ℕ → UInt8) (L : ℕ) (g : List (ℕ × UInt8)) (s : State) : Prop where
  isOpen : s.fwbOpen = true
  flash : s.flash = F
  base : s.fwbBaseAdr = L
  valid : s.fwbValid = g.length % 0x100000000
  data : s.fwbValid ≠ 0 → ∀ i < 32, s.fwbwdata i = content F (keptOf g) (L+i)

variable {F A : ℕ → UInt8} {L : ℕ} {g ws : List (ℕ × UInt8)} {s : State}

lemma update_content {d : List (ℕ × UInt8)} {buf : ℕ → UInt8}
    (hbuf : ∀ i < 32, buf i = content F d (line w.1+i)) :
    ∀ i < 32, update buf (w.1 % 32) w.2 i = content F (d ++ [w]) (line w.1+i) := by
  intro i hi
  rw [content_append,content_cons,content_nil]
  unfold line at *
  by_cases hw : i = w.1 % 32
  · rw [hw,update_self,show w.1 / 32*32+w.1 % 32 = w.1 by omega,
      update_self]
  · rw [update_of_ne hw,update_of_ne (by omega),hbuf i hi]

lemma InLine.first (h : Ready s) (hbase : line w.1 ≠ s.fwbBaseAdr) :
    InLine (view s) (line w.1) [w] (fwbWriteByte s w.1 w.2).2 := by
  obtain ⟨hflash,hvalid,hopen⟩ := fwbClose_spec h
  unfold fwbWriteByte
  simp only [h.isOpen,Bool.not_true,Bool.false_eq_true,if_false,if_pos hbase,hvalid,if_true]
  refine ⟨hopen,hflash,rfl,rfl,fun _ => ?_⟩
  rw [← nil_append [w],keptOf_concat_of_eq_zero rfl]
  apply update_content (d := [])
  intro i hi
  rw [hflash,content_nil]

lemma InLine.write (h : InLine F L g s) (hw : line w.1 = L) :
    InLine F L (g ++ [w]) (fwbWriteByte s w.1 w.2).2 := by
  subst hw
  unfold fwbWriteByte
  simp only [h.isOpen,Bool.not_true,Bool.false_eq_true,if_false,h.base,ne_eq,not_true]
  refine ⟨rfl,h.flash,rfl,?_,?_⟩
  · rw [h.valid,length_append,length_singleton,Nat.mod_add_mod]
  intro hvalid
  replace hvalid : (g.length+1) % 0x100000000 ≠ 0 := by
    rwa [h.valid,Nat.mod_add_mod] at hvalid
  by_cases hzero : s.fwbValid = 0
  · -- the line is read again, and what was in the buffer is gone
    rw [keptOf_concat_of_eq_zero (h.valid.symm.trans hzero),if_pos hzero]
    apply update_content (d := [])
    intro i hi
    rw [h.flash,content_nil]
  · rw [keptOf_concat hvalid,if_neg hzero]
    exact update_content (h.data hzero)

lemma InLine.writes (h : InLine F L g s) (hws : ∀ w ∈ ws, line w.1 = L) :
    InLine F L (g ++ ws) (writes s ws) := by
  induction ws generalizing g s with
  | nil => rwa [append_nil]
  | cons w ws ih =>
    have hw := h.write (hws w mem_cons_self)
    have hrest := ih hw fun w' hw' => hws w' (mem_cons_of_mem w hw')
    rwa [append_assoc] at hrest

lemma InLine.view_eq (h : InLine F L g s) (hg : ∀ w ∈ g, line w.1 = L) :
    view s = content F (keptOf g) := by
  by_cases hzero : s.fwbValid = 0
  · rw [view_of_valid_eq_zero hzero,h.flash,keptOf_eq_nil (h.valid.symm.trans hzero),content_nil]
  funext x
  unfold view
  rw [h.base]
  by_cases hx : L ≤ x ∧ x < L+32
  · rw [if_pos ⟨hzero,hx⟩,h.data hzero _ (by omega),Nat.add_sub_cancel' hx.1]
  rw [if_neg fun hx' => hx hx'.2,h.flash,content_of_forall_ne]
  intro w hw hwx
  have := hg w (mem_of_mem_drop hw)
  unfold line at this
  omega

lemma writes_line (h : Ready s) (hne : g ≠ []) (hg : ∀ w ∈ g, line w.1 = L)
    (hbase : L ≠ s.fwbBaseAdr) (hA : Below A (view s)) (hclears : OnlyClears A g) :
    Ready (writes s g) ∧ (writes s g).fwbBaseAdr = L ∧
      view (writes s g) = content (view s) (keptOf g) ∧
      Below (content A g) (view (writes s g)) := by
  have hline : InLine (view s) L g (writes s g) := by
    cases g with
    | nil => exact absurd rfl hne
    | cons w ws =>
      have hw := hg w mem_cons_self
      have hfirst := InLine.first h (w := w) (by rwa [hw])
      rw [hw] at hfirst
      exact hfirst.writes fun w' hw' => hg w' (mem_cons_of_mem w hw')
  have hview := hline.view_eq hg
  -- the writes that are forgotten only clear bits as well
  have hsplit := hclears
  rw [← take_append_drop (g.length / 0x100000000*0x100000000) g,onlyClears_append] at hsplit
  obtain ⟨hlost,hkept⟩ := hsplit
  have hlow := (hlost.content_below (Below.refl A)).trans hA
  refine ⟨⟨hline.isOpen,?_⟩,hline.base,hview,?_⟩
  · rw [hview,hline.flash]
    exact hkept.content_below hlow
  · rw [hview]
    nth_rewrite 1 [← take_append_drop (g.length / 0x100000000*0x100000000) g]
    rw [content_append]
    exact hkept.below_content hlow

def sameLine (w w' : ℕ × UInt8) : Bool := line w.1 = line w'.1

def kept (ws : List (ℕ × UInt8)) : List (ℕ × UInt8) := (ws.splitBy sameLine).flatMap keptOf

lemma line_of_isChain (h : (w :: ws).IsChain fun x y => sameLine x y = true) :
    ∀ w' ∈ w :: ws, line w'.1 = line w.1 := by
  induction ws generalizing w with
  | nil => simp
  | cons v ws ih =>
    rw [isChain_cons_cons] at h
    have hv : line w.1 = line v.1 := of_decide_eq_true h.1
    intro w' hw'
    rcases mem_cons.mp hw' with rfl | hw'
    · rfl
    · rw [ih h.2 w' hw',hv]

lemma writes_append (s : State) (ws ws' : List (ℕ × UInt8)) :
    writes s (ws ++ ws') = writes (writes s ws) ws' := foldl_append

lemma writes_groups {gs : List (List (ℕ × UInt8))} (hne : [] ∉ gs)
    (hline : ∀ g ∈ gs, g.IsChain fun x y => sameLine x y = true)
    (hnext : gs.IsChain fun g g' => ∃ h h', sameLine (g.getLast h) (g'.head h') = false)
    (h : Ready s) (hbase : ∀ g ∈ gs.head?, ∀ w ∈ g, line w.1 ≠ s.fwbBaseAdr)
    (hA : Below A (view s)) (hclears : OnlyClears A gs.flatten) :
    Ready (writes s gs.flatten) ∧
      view (writes s gs.flatten) = content (view s) (gs.flatMap keptOf) := by
  induction gs generalizing s A with
  | nil => exact ⟨h,rfl⟩
  | cons g gs ih =>
    rw [flatten_cons,onlyClears_append] at hclears
    cases g with
    | nil => exact absurd mem_cons_self hne
    | cons w ws =>
      have hw := line_of_isChain (hline _ mem_cons_self)
      obtain ⟨hready,hbase',hview,hbelow⟩ := writes_line h (cons_ne_nil w ws) hw
        (hbase _ rfl w mem_cons_self) hA hclears.1
      have hrest := ih (fun hmem => hne (mem_cons_of_mem _ hmem))
        (fun g hg => hline g (mem_cons_of_mem _ hg)) hnext.tail hready ?_ hbelow hclears.2
      · rw [flatten_cons,writes_append,flatMap_cons,content_append,← hview]
        exact hrest
      -- the next line is another one
      intro g' hg' w' hw'
      obtain ⟨gs,rfl⟩ := head?_eq_some_iff.mp hg'
      obtain ⟨hlast,hhead,hdiff⟩ := (isChain_cons_cons.mp hnext).1
      cases g' with
      | nil => cases hw'
      | cons v vs =>
        have hv := line_of_isChain (hline _ (mem_cons_of_mem _ mem_cons_self)) w' hw'
        have hl := hw _ (getLast_mem hlast)
        have hdiff' : line ((w :: ws).getLast hlast).1 ≠ line v.1 := of_decide_eq_false hdiff
        rw [hbase',hv,← hl]
        exact hdiff'.symm

lemma session_of_clears (hbase : fwbGetBlockSize b base ≠ 0) (h : OnlyClears s.flash ws) :
    session b s base ws = content s.flash (kept ws) := by
  have hopen : (fwbOpen b s base).2 = { s.reset with fwbOpen := true } := by
    simp [fwbOpen,hbase,State.reset]
  have hview : view { s.reset with fwbOpen := true } = s.flash := view_of_valid_eq_zero rfl
  have hready : Ready { s.reset with fwbOpen := true } := by
    refine ⟨rfl,?_⟩
    rw [hview]
    exact Below.refl _
  -- no line starts at the address that stands for none
  have hbase' : ∀ g ∈ (ws.splitBy sameLine).head?, ∀ w ∈ g, line w.1 ≠ 0xffffffff := by
    intro g _ w _
    unfold line
    omega
  obtain ⟨hready',hview'⟩ := writes_groups (nil_notMem_splitBy sameLine ws)
    (fun g hg => isChain_of_mem_splitBy hg) (isChain_getLast_head_splitBy sameLine ws)
    hready hbase' (by rw [hview]; exact Below.refl _) (by rwa [flatten_splitBy])
  rw [flatten_splitBy] at hready' hview'
  rw [session,hopen,(fwbClose_spec hready').1,hview',hview,kept]

lemma session_of_not_open (hbase : fwbGetBlockSize b base = 0) (s : State) (ws : List (ℕ × UInt8))
    : session b s base ws = s.flash := by
  have hopen : (fwbOpen b s base).2 = { s with fwbOpen := false } := by
    simp [fwbOpen,hbase]
  have hwrites : writes { s with fwbOpen := false } ws = { s with fwbOpen := false } := by
    induction ws with
    | nil => rfl
    | cons w ws ih => exact ih
  rw [session,hopen,hwrites]
  rfl

lemma kept_eq_self (h : ∀ g ∈ ws.splitBy sameLine, g.length < 0x100000000) : kept ws = ws := by
  have hid : ∀ g ∈ ws.splitBy sameLine, keptOf g = id g := by
    intro g hg
    rw [keptOf,Nat.div_eq_of_lt (h g hg),Nat.zero_mul]
    rfl
  rw [kept,flatMap_congr hid,flatMap_id,flatten_splitBy]

/-- The two drivers leave the same flash, unless a write is forgotten that no later one makes
up for. -/
theorem session_eq_amd_iff (b : Board) (base : ℕ) {s : Amd.State} {t : State}
    (hflash : t.flash = s.flash) {ws : List (ℕ × UInt8)}
    (h : Amd.Clears (Amd.fwbOpen b s base).2 ws) :
    (session b t base ws = Amd.session b s base ws ∧
      ∀ x, (∀ w ∈ ws, w.1 ≠ x) → session b t base ws x = s.flash x) ↔
      Amd.fwbGetBlockSize b base = 0 ∨ content s.flash (kept ws) = content s.flash ws := by
  by_cases hbase : Amd.fwbGetBlockSize b base = 0
  · have hstrata := session_of_not_open ((fwbGetBlockSize_eq_zero_iff b base).mpr hbase) t ws
    rw [hstrata,hflash,Amd.session_of_not_open hbase]
    exact iff_of_true ⟨rfl,fun _ _ => rfl⟩ (.inl hbase)
  have hamd := Amd.session_of_clears hbase h
  rw [Amd.fwbOpen_of_ne_zero hbase,Amd.clears_iff_onlyClears rfl] at h
  have hstrata : session b t base ws = content s.flash (kept ws) := by
    rw [← hflash]
    apply session_of_clears (mt (fwbGetBlockSize_eq_zero_iff b base).mp hbase)
    rwa [hflash]
  rw [hstrata,hamd,or_iff_right hbase]
  constructor
  · exact And.left
  · intro heq
    refine ⟨heq,fun x hx => ?_⟩
    rw [heq,content_of_forall_ne hx]

def idle : State := ⟨fun _ => 0xff,0,0,false,fun _ => 0⟩

def threeWrites : List (ℕ × UInt8) := [(cs0Base,0x7f),(cs0Base+32,0),(cs0Base,0x3f)]

theorem session_eq_amd_threeWrites :
    session Amd.twoChips idle cs0Base threeWrites =
      Amd.session Amd.twoChips Amd.closed cs0Base threeWrites :=
  ((@session_eq_amd_iff Amd.twoChips cs0Base Amd.closed idle rfl threeWrites
    ⟨by decide,by decide,by decide,trivial⟩).mpr
      (.inr (congrArg _ (kept_eq_self (by decide))))).1

lemma kept_replicate (n : ℕ) (w : ℕ × UInt8) :
    kept (List.replicate n w) = List.replicate (n % 0x100000000) w := by
  cases n with
  | zero => rfl
  | succ n =>
    have hchain : (replicate (n+1) w).IsChain fun x y => sameLine x y = true :=
      isChain_replicate_of_rel _ (decide_eq_true rfl)
    have hne : replicate (n+1) w ≠ [] := cons_ne_nil _ _
    rw [kept,splitBy_of_isChain hne hchain,flatMap_singleton,keptOf,drop_replicate,length_replicate]
    congr 1
    omega

lemma content_replicate (f : ℕ → UInt8) (hn : 0 < n) (w : ℕ × UInt8) :
    content f (List.replicate n w) = update f w.1 w.2 := by
  induction n with
  | zero => omega
  | succ n ih =>
    rcases eq_zero_or_pos n with rfl | hn'
    · rfl
    · rw [replicate_succ',content_append,ih hn',content_cons,content_nil,update_idem]

lemma onlyClears_replicate {f : ℕ → UInt8} (h : w.2 &&& f w.1 = w.2) (n : ℕ) :
    OnlyClears f (List.replicate n w) := by
  induction n with
  | zero => trivial
  | succ n ih =>
    rw [replicate_succ',onlyClears_append]
    refine ⟨ih,?_,trivial⟩
    rcases eq_zero_or_pos n with rfl | hn
    · exact h
    · rw [content_replicate f hn,update_self,UInt8.and_self]

lemma session_replicate_ne (hbase : Amd.fwbGetBlockSize b base ≠ 0) {s : Amd.State} {t : State}
    (hflash : t.flash = s.flash) (hw : w.2 &&& s.flash w.1 = w.2) (hne : s.flash w.1 ≠ w.2)
    (hpos : 0 < n) (hn : n % 0x100000000 = 0) :
    Amd.Clears (Amd.fwbOpen b s base).2 (List.replicate n w) ∧
      session b t base (List.replicate n w) ≠ Amd.session b s base (List.replicate n w) := by
  have hclears : Amd.Clears (Amd.fwbOpen b s base).2 (replicate n w) := by
    rw [Amd.fwbOpen_of_ne_zero hbase,Amd.clears_iff_onlyClears rfl]
    exact onlyClears_replicate hw n
  have hstrata : session b t base (replicate n w) = s.flash := by
    rw [session_of_clears (mt (fwbGetBlockSize_eq_zero_iff b base).mp hbase),kept_replicate,hn,
      hflash]
    · rfl
    · rw [hflash]
      exact onlyClears_replicate hw n
  refine ⟨hclears,fun heq => hne ?_⟩
  rw [hstrata,Amd.session_of_clears hbase hclears,content_replicate _ hpos] at heq
  rw [heq,update_self]

theorem session_forgets :
    Amd.Clears (Amd.fwbOpen Amd.twoChips Amd.closed cs0Base).2
      (List.replicate 0x100000000 (cs0Base+0x10000,0x7f)) ∧
      session Amd.twoChips idle cs0Base (List.replicate 0x100000000 (cs0Base+0x10000,0x7f)) ≠
        Amd.session Amd.twoChips Amd.closed cs0Base
          (List.replicate 0x100000000 (cs0Base+0x10000,0x7f)) :=
  session_replicate_ne (by decide) rfl (by decide) (by decide) (by decide) (by decide)

end DslG624t.Fwb.Strata
