import DslG624t.Lib.Chain

/-!
# The DMA engine and its descriptor queue

Transmit and receive channels share one engine design.
-/

namespace DslG624t.Cpmac

open Function HeapList List

/-- A buffer descriptor: the driver's and the engine's link, two bits of `mode`, and the
token of the buffer it holds. -/
structure Desc where
  next : Option ℕ
  hNext : Option ℕ
  own : Bool
  eoq : Bool
  tok : ℕ
  deriving DecidableEq

inductive Engine where
  | halted
  | running (b : ℕ)
  | fetched (b : ℕ) (link : Option ℕ)
  deriving DecidableEq

/-- Descriptor memory and engine. `clash` records a start while the engine was busy. -/
structure Hw where
  mem : ℕ → Desc
  eng : Engine
  clash : Bool

def Hw.modify (h : Hw) (i : ℕ) (f : Desc → Desc) : Hw :=
  { h with mem := update h.mem i (f (h.mem i)) }

def Hw.writeHdp (h : Hw) (p : Option ℕ) : Hw :=
  match h.eng, p with
  | .halted, some b => { h with eng := .running b }
  | .halted, none => h
  | _, _ => { h with clash := true }

def Desc.release (d : Desc) : Desc := { d with own := false }

def Desc.releaseEoq (d : Desc) : Desc := { d with own := false, eoq := true }

def Desc.clearEoq (d : Desc) : Desc := { d with eoq := false }

def Desc.link (x : ℕ) (d : Desc) : Desc := { d with hNext := some x }

def Desc.chainTo (x : ℕ) (d : Desc) : Desc := { d with next := some x }

def Desc.chainBefore (p : Option ℕ) (d : Desc) : Desc := { d with next := p }

def Desc.fill (tok : ℕ) (_ : Desc) : Desc := ⟨none,none,true,false,tok⟩

inductive HwStep : Hw → Hw → Prop where
  | fetch {h : Hw} {b : ℕ} (he : h.eng = .running b) :
    HwStep h { h with eng := .fetched b (h.mem b).hNext }
  | advance {h : Hw} {b x : ℕ} (he : h.eng = .fetched b (some x)) :
    HwStep h { h.modify b Desc.release with eng := .running x }
  | halt {h : Hw} {b : ℕ} (he : h.eng = .fetched b none) :
    HwStep h { h.modify b Desc.releaseEoq with eng := .halted }

def Hw.nextOf (h : Hw) (i : ℕ) : Option ℕ := (h.mem i).next

def Hw.hNextOf (h : Hw) (i : ℕ) : Option ℕ := (h.mem i).hNext

/-- Where the engine stands in a queue. It is halted on an empty queue, or behind a finished
descriptor that carries the only end-of-queue bit. -/
def EngineAt (h : Hw) (D U : List ℕ) : Prop :=
  match h.eng with
  | .halted => (D = [] ∧ U = []) ∨
    ∃ D' e, D = D' ++ [e] ∧ (h.mem e).eoq = true ∧ ∀ a ∈ D', (h.mem a).eoq = false
  | .running b => U.head? = some b ∧ ∀ a ∈ D, (h.mem a).eoq = false
  | .fetched b link => (∃ U', U = b :: U' ∧ (link = none ∨ link = U'.head?)) ∧
    ∀ a ∈ D, (h.mem a).eoq = false

structure HwQueue (h : Hw) (D U : List ℕ) : Prop where
  nodup : (D ++ U).Nodup
  linked : Chain h.hNextOf (D ++ U).head? (D ++ U)
  finished : ∀ a ∈ D, (h.mem a).own = false
  pending : ∀ a ∈ U, (h.mem a).own = true ∧ (h.mem a).eoq = false
  engine : EngineAt h D U
  noClash : h.clash = false

/-- The driver's view of a queue: its own links, first and last descriptor. -/
structure SwQueue (h : Hw) (head tail : Option ℕ) (A : List ℕ) : Prop where
  chain : Chain h.nextOf head A
  last : tail = A.getLast?

lemma HwQueue.finished_head {h : Hw} {D U : List ℕ} {c : ℕ} (hq : HwQueue h D U)
    (hhead : (D ++ U).head? = some c) (hc : (h.mem c).own = false) : ∃ D', D = c :: D' := by
  cases D with
  | nil =>
    have hcU : c ∈ U := mem_of_mem_head? (by simpa using hhead)
    simp [(hq.pending c hcU).1] at hc
  | cons y D =>
    obtain rfl : y = c := by simpa using hhead
    exact ⟨D,rfl⟩

section Memory

variable {h : Hw} {i j : ℕ} {f : Desc → Desc}

@[simp] lemma mem_modify_self : (h.modify i f).mem i = f (h.mem i) := by simp [Hw.modify]

lemma mem_modify_of_ne (hij : j ≠ i) : (h.modify i f).mem j = h.mem j := by
  simp [Hw.modify,hij]

@[simp] lemma eng_modify : (h.modify i f).eng = h.eng := rfl

@[simp] lemma mem_writeHdp (p : Option ℕ) : (h.writeHdp p).mem = h.mem := by
  unfold Hw.writeHdp
  split <;> rfl

lemma nextOf_modify : (h.modify i f).nextOf =
    update h.nextOf i (f (h.mem i)).next := by
  funext j
  by_cases hij : j = i
  · subst hij
    simp [Hw.nextOf]
  · simp [Hw.nextOf,mem_modify_of_ne hij,hij]

lemma hNextOf_modify : (h.modify i f).hNextOf =
    update h.hNextOf i (f (h.mem i)).hNext := by
  funext j
  by_cases hij : j = i
  · subst hij
    simp [Hw.hNextOf]
  · simp [Hw.hNextOf,mem_modify_of_ne hij,hij]

lemma nextOf_modify_same (hf : ∀ d, (f d).next = d.next) : (h.modify i f).nextOf = h.nextOf := by
  rw [nextOf_modify,hf]
  exact update_eq_self _ _

lemma hNextOf_modify_same (hf : ∀ d, (f d).hNext = d.hNext) :
    (h.modify i f).hNextOf = h.hNextOf := by
  rw [hNextOf_modify,hf]
  exact update_eq_self _ _

lemma proj_modify {γ : Type} (g : Desc → γ) (hg : ∀ d, g (f d) = g d) (a : ℕ) :
    g ((h.modify i f).mem a) = g (h.mem a) := by
  by_cases hai : a = i
  · subst hai
    rw [mem_modify_self,hg]
  · rw [mem_modify_of_ne hai]

@[simp] lemma nextOf_writeHdp (p : Option ℕ) : (h.writeHdp p).nextOf = h.nextOf := by
  funext j
  simp [Hw.nextOf]

@[simp] lemma nextOf_clearEoq : (h.modify i Desc.clearEoq).nextOf = h.nextOf :=
  nextOf_modify_same fun _ => rfl

@[simp] lemma nextOf_link (x : ℕ) : (h.modify i (Desc.link x)).nextOf = h.nextOf :=
  nextOf_modify_same fun _ => rfl

lemma writeHdp_modify (p : Option ℕ) : (h.modify i f).writeHdp p = (h.writeHdp p).modify i f := by
  cases he : h.eng <;> cases p <;> simp [Hw.writeHdp,Hw.modify,he]

lemma writeHdp_of_halted (he : h.eng = .halted) (b : ℕ) :
    h.writeHdp (some b) = { h with eng := .running b } := by
  simp [Hw.writeHdp,he]

lemma modify_clear_eq {t : ℕ} (ht : (h.mem t).own = false) :
    (h.modify t fun d => { d with own := false, eoq := false }) = h.modify t Desc.clearEoq := by
  have hd : ({ h.mem t with own := false, eoq := false } : Desc) = (h.mem t).clearEoq := by
    rw [Desc.clearEoq,← ht]
  exact congrArg (fun d => { h with mem := update h.mem t d }) hd

end Memory

namespace HwStep

variable {h h' : Hw}

lemma not_halted (hs : HwStep h h') : h.eng ≠ .halted := by
  intro hh
  cases hs with
  | fetch he => simp [hh] at he
  | advance he => simp [hh] at he
  | halt he => simp [hh] at he

lemma tok_eq (hs : HwStep h h') (a : ℕ) : (h'.mem a).tok = (h.mem a).tok := by
  cases hs with
  | fetch he => rfl
  | advance he => exact proj_modify (f := Desc.release) Desc.tok (fun _ => rfl) a
  | halt he => exact proj_modify (f := Desc.releaseEoq) Desc.tok (fun _ => rfl) a

lemma nextOf_eq (hs : HwStep h h') : h'.nextOf = h.nextOf := by
  cases hs with
  | fetch he => rfl
  | advance he => exact nextOf_modify_same (f := Desc.release) fun _ => rfl
  | halt he => exact nextOf_modify_same (f := Desc.releaseEoq) fun _ => rfl

lemma clash_eq (hs : HwStep h h') : h'.clash = h.clash := by
  cases hs <;> rfl

end HwStep

namespace HwQueue

variable {h h' : Hw} {D U : List ℕ} {b c x t : ℕ} {W U' : List ℕ} {f : Desc → Desc}

lemma not_mem_of_mem_pending (hq : HwQueue h D U) (hb : b ∈ U) : b ∉ D :=
  fun hd => (nodup_append'.mp hq.nodup).2.2 hd hb

lemma finish (hq : HwQueue h D (b :: U')) (hl : ∀ d, (f d).hNext = d.hNext)
    (ho : ∀ d, (f d).own = false) {e : Engine}
    (he : EngineAt { h.modify b f with eng := e } (D ++ [b]) U') :
    HwQueue { h.modify b f with eng := e } (D ++ [b]) U' := by
  have happ : D ++ [b] ++ U' = D ++ b :: U' := by simp
  have hnd := hq.nodup
  rw [← happ] at hnd
  refine ⟨hnd,?_,?_,?_,he,hq.noClash⟩
  · have hn : Hw.hNextOf { h.modify b f with eng := e } = h.hNextOf := hNextOf_modify_same hl
    rw [hn,happ]
    exact hq.linked
  · intro a ha
    by_cases hab : a = b
    · subst hab
      exact (congrArg Desc.own mem_modify_self).trans (ho _)
    · have had : a ∈ D := by simpa [hab] using ha
      exact (congrArg Desc.own (mem_modify_of_ne hab)).trans (hq.finished a had)
  intro a ha
  have hab : a ≠ b := by
    rintro rfl
    exact (nodup_append'.mp hnd).2.2 (by simp) ha
  have hm : (h.modify b f).mem a = h.mem a := mem_modify_of_ne hab
  change ((h.modify b f).mem a).own = true ∧ ((h.modify b f).mem a).eoq = false
  rw [hm]
  exact hq.pending a (mem_cons_of_mem _ ha)

lemma hwStep (hq : HwQueue h D U) (hs : HwStep h h') :
    ∃ E U', D ++ U = (D ++ E) ++ U' ∧ HwQueue h' (D ++ E) U' ∧ ∀ a ∉ U, h'.mem a = h.mem a := by
  have heng := hq.engine
  have hother {b : ℕ} {U' : List ℕ} (f : Desc → Desc) (a : ℕ) (ha : a ∉ b :: U') :
      (h.modify b f).mem a = h.mem a := mem_modify_of_ne fun hab => ha (by simp [hab])
  cases hs with
  | @fetch b he =>
    simp only [EngineAt,he] at heng
    obtain ⟨hU,heoq⟩ := heng
    obtain ⟨U',rfl⟩ : ∃ U', U = b :: U' := by
      cases U with
      | nil => simp at hU
      | cons y U' => exact ⟨U',by simpa using hU⟩
    have hnext : (h.mem b).hNext = U'.head? := Chain.next_eq hq.linked
    refine ⟨[],b :: U',by simp,?_,fun _ _ => rfl⟩
    rw [append_nil]
    refine ⟨hq.nodup,hq.linked,hq.finished,hq.pending,?_,hq.noClash⟩
    exact ⟨⟨U',rfl,.inr hnext⟩,heoq⟩
  | @advance b x he =>
    simp only [EngineAt,he] at heng
    obtain ⟨⟨U',rfl,hlink⟩,heoq⟩ := heng
    have hx : U'.head? = some x := by
      rcases hlink with hl | hl
      · cases hl
      · exact hl.symm
    have hb := hq.not_mem_of_mem_pending (mem_cons_self : b ∈ b :: U')
    refine ⟨[b],U',by simp,?_,hother Desc.release⟩
    refine hq.finish (f := Desc.release) (fun _ => rfl) (fun _ => rfl) ⟨hx,?_⟩
    intro a ha
    by_cases hab : a = b
    · subst hab
      exact (congrArg Desc.eoq mem_modify_self).trans (hq.pending a (by simp)).2
    · have had : a ∈ D := by simpa [hab] using ha
      exact (congrArg Desc.eoq (mem_modify_of_ne hab)).trans (heoq a had)
  | @halt b he =>
    simp only [EngineAt,he] at heng
    obtain ⟨⟨U',rfl,-⟩,heoq⟩ := heng
    have hb := hq.not_mem_of_mem_pending (mem_cons_self : b ∈ b :: U')
    refine ⟨[b],U',by simp,?_,hother Desc.releaseEoq⟩
    refine hq.finish (f := Desc.releaseEoq) (fun _ => rfl) (fun _ => rfl)
      (.inr ⟨D,b,rfl,?_,fun a ha => ?_⟩)
    · exact congrArg Desc.eoq mem_modify_self
    · have hab : a ≠ b := fun hab => hb (hab ▸ ha)
      exact (congrArg Desc.eoq (mem_modify_of_ne hab)).trans (heoq a ha)

lemma congr (hq : HwQueue h D U)
    (hn : ∀ a ∈ D ++ U, (h'.mem a).hNext = (h.mem a).hNext)
    (ho : ∀ a ∈ D ++ U, (h'.mem a).own = (h.mem a).own)
    (hm : ∀ a ∈ D ++ U, (h'.mem a).eoq = (h.mem a).eoq)
    (he : h'.eng = h.eng) (hc : h'.clash = h.clash) : HwQueue h' D U := by
  have hD : ∀ a ∈ D, (h'.mem a).eoq = (h.mem a).eoq :=
    fun a ha => hm a (mem_append_left _ ha)
  refine ⟨hq.nodup,hq.linked.congr hn,?_,?_,?_,hc.trans hq.noClash⟩
  · intro a ha
    rw [ho a (mem_append_left _ ha)]
    exact hq.finished a ha
  · intro a ha
    rw [ho a (mem_append_right _ ha),hm a (mem_append_right _ ha)]
    exact hq.pending a ha
  have heng := hq.engine
  unfold EngineAt at heng ⊢
  rw [he]
  cases hh : h.eng with
  | halted =>
    simp only [hh] at heng ⊢
    refine heng.imp id ?_
    rintro ⟨D',e,rfl,h1,h2⟩
    refine ⟨D',e,rfl,?_,fun a ha => ?_⟩
    · rw [hD e (by simp)]
      exact h1
    · rw [hD a (by simp [ha])]
      exact h2 a ha
  | running b =>
    simp only [hh] at heng ⊢
    refine ⟨heng.1,fun a ha => ?_⟩
    rw [hD a ha]
    exact heng.2 a ha
  | fetched b link =>
    simp only [hh] at heng ⊢
    refine ⟨heng.1,fun a ha => ?_⟩
    rw [hD a ha]
    exact heng.2 a ha

lemma modify_of_not_mem (hq : HwQueue h D U) (hx : x ∉ D ++ U) (f : Desc → Desc) :
    HwQueue (h.modify x f) D U := by
  have hmem (a : ℕ) (ha : a ∈ D ++ U) : (h.modify x f).mem a = h.mem a :=
    mem_modify_of_ne fun hax => hx (hax ▸ ha)
  refine hq.congr (fun a ha => ?_) (fun a ha => ?_) (fun a ha => ?_) rfl rfl <;> rw [hmem a ha]

lemma linked_tail (hq : HwQueue h (c :: D) U) : Chain h.hNextOf (D ++ U).head? (D ++ U) := by
  have hl := hq.linked.2
  have hh := Chain.head_eq hl
  rwa [hh] at hl

lemma eng_of_nil (hq : HwQueue h D []) : h.eng = .halted := by
  have heng := hq.engine
  unfold EngineAt at heng
  cases hh : h.eng with
  | halted => rfl
  | running b => simp [hh] at heng
  | fetched b link => simp [hh] at heng

lemma rest_ne_nil (hq : HwQueue h (c :: D) U) (hc : (h.mem c).eoq = false) : D ++ U ≠ [] := by
  intro hnil
  obtain ⟨rfl,rfl⟩ := append_eq_nil_iff.mp hnil
  have heng := hq.engine
  simp only [EngineAt,hq.eng_of_nil] at heng
  obtain ⟨hD,-⟩ | ⟨D',e,hD,he,-⟩ := heng
  · cases hD
  cases D' with
  | nil =>
    obtain rfl := (cons.inj hD).1
    simp [hc] at he
  | cons y D' => simp at hD

lemma pop (hq : HwQueue h (c :: D) U) (hc : (h.mem c).eoq = false) : HwQueue h D U := by
  refine ⟨(nodup_cons.mp hq.nodup).2,hq.linked_tail,?_,hq.pending,?_,hq.noClash⟩
  · exact fun a ha => hq.finished a (mem_cons_of_mem _ ha)
  have heng := hq.engine
  unfold EngineAt at heng ⊢
  cases hh : h.eng with
  | halted =>
    simp only [hh] at heng ⊢
    obtain ⟨hD,-⟩ | ⟨D',e,hD,he,hD'⟩ := heng
    · cases hD
    cases D' with
    | nil =>
      -- The bit would be on the descriptor taken off.
      obtain ⟨rfl,-⟩ := cons.inj hD
      simp [hc] at he
    | cons y D' =>
      obtain ⟨rfl,rfl⟩ := cons.inj hD
      exact .inr ⟨D',e,rfl,he,fun a ha => hD' a (mem_cons_of_mem _ ha)⟩
  | running b =>
    simp only [hh] at heng ⊢
    exact ⟨heng.1,fun a ha => heng.2 a (mem_cons_of_mem _ ha)⟩
  | fetched b link =>
    simp only [hh] at heng ⊢
    exact ⟨heng.1,fun a ha => heng.2 a (mem_cons_of_mem _ ha)⟩

lemma halted_of_eoq (hq : HwQueue h D U) (hc : c ∈ D) (he : (h.mem c).eoq = true) :
    h.eng = .halted ∧ ∃ D', D = D' ++ [c] := by
  have heng := hq.engine
  unfold EngineAt at heng
  cases hh : h.eng with
  | halted =>
    simp only [hh] at heng
    obtain ⟨rfl,-⟩ | ⟨D',e,rfl,-,hD'⟩ := heng
    · simp at hc
    · refine ⟨rfl,D',?_⟩
      rcases mem_append.mp hc with hc | hc
      · simp [hD' c hc] at he
      · rw [mem_singleton.mp hc]
  | running b =>
    simp only [hh] at heng
    simp [heng.2 c hc] at he
  | fetched b link =>
    simp only [hh] at heng
    simp [heng.2 c hc] at he

lemma halted_of_eoq_append (hq : HwQueue h D U) (hW : D ++ U = W ++ [t,x])
    (he : (h.mem t).eoq = true) :
    h.eng = .halted ∧ D = W ++ [t] ∧ U = [x] ∧ (h.mem t).own = false := by
  have htD : t ∈ D := by
    have ht : t ∈ D ++ U := by simp [hW]
    rcases mem_append.mp ht with ht | ht
    · exact ht
    · simp [(hq.pending t ht).2] at he
  obtain ⟨hh,D',rfl⟩ := hq.halted_of_eoq htD he
  have hnd := hq.nodup
  rw [append_assoc] at hnd
  have hW' : D' ++ t :: U = W ++ t :: [x] := by simpa using hW
  have ht1 : t ∉ D' := fun hc => (nodup_append'.mp hnd).2.2 hc (by simp)
  have ht2 : t ∉ U := (nodup_cons.mp (nodup_append'.mp hnd).2.1).1
  obtain ⟨rfl,-,rfl⟩ := (append_cons_inj_of_notMem ht1 ht2).mp hW'
  exact ⟨hh,rfl,rfl,hq.finished t (by simp)⟩

lemma engine_mem (hq : HwQueue h D U)
    (he : h.eng = .running b ∨ ∃ link, h.eng = .fetched b link) : b ∈ U := by
  have heng := hq.engine
  unfold EngineAt at heng
  rcases he with he | ⟨link,he⟩
  · simp only [he] at heng
    exact mem_of_mem_head? heng.1
  · simp only [he] at heng
    obtain ⟨⟨U',rfl,-⟩,-⟩ := heng
    simp

lemma popEoq (hq : HwQueue h (c :: D) U) (hc : (h.mem c).eoq = true) :
    D = [] ∧ h.eng = .halted ∧ (h.mem c).hNext = U.head? ∧
      HwQueue (h.writeHdp (h.mem c).hNext) [] U := by
  obtain ⟨he,D',hD'⟩ := hq.halted_of_eoq (by simp) hc
  have hD : D = [] := by
    cases D' with
    | nil => exact (cons.inj hD').2
    | cons y D' =>
      -- The same descriptor cannot be first and last of a longer list.
      obtain ⟨rfl,rfl⟩ := cons.inj hD'
      have hnd := hq.nodup
      simp at hnd
  subst hD
  have hl : (h.mem c).hNext = U.head? := Chain.next_eq (l := []) hq.linked
  refine ⟨rfl,he,hl,?_⟩
  rw [hl]
  have hlk := hq.linked_tail
  cases U with
  | nil =>
    have hw : h.writeHdp [].head? = h := by simp [Hw.writeHdp,he]
    rw [hw]
    refine ⟨by simp,by simp,by simp,by simp,?_,hq.noClash⟩
    unfold EngineAt
    simp [he]
  | cons x U =>
    rw [head?_cons,writeHdp_of_halted he]
    refine ⟨(nodup_cons.mp hq.nodup).2,hlk,by simp,hq.pending,?_,hq.noClash⟩
    exact ⟨rfl,by simp⟩

lemma append (hq : HwQueue h D U) (hW : D ++ U = W ++ [t]) (hx : x ∉ D ++ U)
    (hxo : (h.mem x).own = true) (hxe : (h.mem x).eoq = false) (hxn : (h.mem x).hNext = none) :
    HwQueue (h.modify t (Desc.link x)) D (U ++ [x]) := by
  have hnd := hq.nodup
  have hlk := hq.linked
  rw [hW] at hnd hlk hx
  have happ : D ++ (U ++ [x]) = W ++ [t] ++ [x] := by rw [← append_assoc,hW]
  have ht : t ∉ W := fun hc => (nodup_append'.mp hnd).2.2 hc (by simp)
  have hown := proj_modify (h := h) (i := t) (f := Desc.link x) Desc.own
    (fun _ => rfl)
  have heoq := proj_modify (h := h) (i := t) (f := Desc.link x) Desc.eoq
    (fun _ => rfl)
  refine ⟨?_,?_,?_,?_,?_,hq.noClash⟩
  · rw [happ]
    exact nodup_append'.mpr ⟨hnd,by simp,by simpa using hx⟩
  · rw [happ,hNextOf_modify]
    have hhead : (W ++ [t] ++ [x]).head? = (W ++ [t]).head? := by
      cases W <;> rfl
    rw [hhead]
    exact hlk.append_cell ht hx hxn
  · intro a ha
    rw [hown]
    exact hq.finished a ha
  · intro a ha
    rw [hown,heoq]
    rcases mem_append.mp ha with ha | ha
    · exact hq.pending a ha
    · rw [mem_singleton.mp ha]
      exact ⟨hxo,hxe⟩
  have heng := hq.engine
  unfold EngineAt at heng ⊢
  simp only [eng_modify,heoq]
  cases hh : h.eng with
  | halted =>
    simp only [hh] at heng ⊢
    obtain ⟨rfl,rfl⟩ | heng := heng
    · simp at hW
    · exact .inr heng
  | running b =>
    simp only [hh] at heng ⊢
    refine ⟨?_,heng.2⟩
    rw [head?_append,heng.1]
    rfl
  | fetched b link =>
    simp only [hh] at heng ⊢
    obtain ⟨⟨U',rfl,hlink⟩,heoqs⟩ := heng
    refine ⟨⟨U' ++ [x],rfl,?_⟩,heoqs⟩
    cases U' with
    | nil => exact .inl (by simpa using hlink)
    | cons y U' => simpa using hlink

lemma start (hq : HwQueue h [] []) (hxo : (h.mem x).own = true)
    (hxe : (h.mem x).eoq = false) (hxn : (h.mem x).hNext = none) :
    HwQueue (h.writeHdp (some x)) [] [x] := by
  rw [writeHdp_of_halted hq.eng_of_nil]
  refine ⟨by simp,⟨rfl,hxn⟩,by simp,?_,⟨rfl,by simp⟩,hq.noClash⟩
  intro a ha
  rw [mem_singleton.mp ha]
  exact ⟨hxo,hxe⟩

lemma restart (hq : HwQueue h (D ++ [t]) (x :: U)) (he : h.eng = .halted) :
    HwQueue ((h.writeHdp (some x)).modify t Desc.clearEoq) (D ++ [t])
      (x :: U) := by
  rw [writeHdp_of_halted he]
  have hown := proj_modify (h := { h with eng := .running x }) (i := t)
    (f := Desc.clearEoq) Desc.own (fun _ => rfl)
  have hhalt := hq.engine
  simp only [EngineAt,he] at hhalt
  obtain ⟨hD,-⟩ | ⟨D',e,hD,-,hD'⟩ := hhalt
  · simp at hD
  obtain ⟨rfl,hte⟩ := append_inj' hD rfl
  have hne : ∀ a ∈ x :: U, a ≠ t := by
    rintro a ha rfl
    exact hq.not_mem_of_mem_pending ha (by simp)
  refine ⟨hq.nodup,?_,?_,?_,⟨rfl,?_⟩,hq.noClash⟩
  · have hn : Hw.hNextOf (Hw.modify { h with eng := .running x } t
        Desc.clearEoq) = h.hNextOf := hNextOf_modify_same fun _ => rfl
    rw [hn]
    exact hq.linked
  · intro a ha
    rw [hown]
    exact hq.finished a ha
  · intro a ha
    rw [mem_modify_of_ne (hne a ha)]
    exact hq.pending a ha
  intro a ha
  by_cases hat : a = t
  · subst hat
    rw [mem_modify_self]
    rfl
  · rw [mem_modify_of_ne hat]
    exact hD' a (by simpa [hat] using ha)

lemma hang (hq : HwQueue h D U) (hx : x ∉ D ++ U) (tok : ℕ) :
    HwQueue ((h.modify x (Desc.fill tok)).modify t (Desc.chainTo x)) D U := by
  refine (hq.modify_of_not_mem hx (Desc.fill tok)).congr (fun a ha => ?_) (fun a ha => ?_)
    (fun a ha => ?_) rfl rfl
  · rw [proj_modify (f := Desc.chainTo x) Desc.hNext (fun _ => rfl)]
  · rw [proj_modify (f := Desc.chainTo x) Desc.own (fun _ => rfl)]
  · rw [proj_modify (f := Desc.chainTo x) Desc.eoq (fun _ => rfl)]

end HwQueue

variable {head tail : Option ℕ} {h h' : Hw}

lemma SwQueue.frame {A : List ℕ} (hs : SwQueue h head tail A) (hn : h'.nextOf = h.nextOf) :
    SwQueue h' head tail A :=
  ⟨by rw [hn]; exact hs.chain,hs.last⟩

lemma SwQueue.hang {W : List ℕ} {t x : ℕ} (hs : SwQueue h head tail (W ++ [t]))
    (hnd : (W ++ [t]).Nodup) (hx : x ∉ W ++ [t]) (tok : ℕ) :
    SwQueue ((h.modify x (Desc.fill tok)).modify t (Desc.chainTo x)) head (some x)
      (W ++ [t] ++ [x]) := by
  have htW : t ∉ W := fun hc => (nodup_append'.mp hnd).2.2 hc (by simp)
  have hch : Chain (update h.nextOf x none) head (W ++ [t]) :=
    hs.chain.congr fun a ha => update_of_ne (by rintro rfl; exact hx ha) _ _
  refine ⟨?_,by simp⟩
  rw [nextOf_modify,nextOf_modify]
  exact hch.append_cell htW hx (by simp)

lemma HwStep.clearEoq {D U : List ℕ} {t : ℕ} (hs : HwStep h h')
    (hq : HwQueue (h.modify t Desc.clearEoq) D U) (ht : t ∈ D) :
    HwStep (h.modify t Desc.clearEoq)
      (h'.modify t Desc.clearEoq) := by
  have hne {b : ℕ} (hb : b ∈ U) : b ≠ t := by
    rintro rfl
    exact hq.not_mem_of_mem_pending hb ht
  cases hs with
  | @fetch b he =>
    have hb := hne (hq.engine_mem (.inl he))
    have hstep := HwStep.fetch (h := h.modify t Desc.clearEoq) he
    rw [mem_modify_of_ne hb] at hstep
    exact hstep
  | @advance b x he =>
    have hb := hne (hq.engine_mem (.inr ⟨_,he⟩))
    have hstep := HwStep.advance (h := h.modify t Desc.clearEoq) he
    convert hstep using 1
    simp [Hw.modify,update_comm hb,hb,Ne.symm hb]
  | @halt b he =>
    have hb := hne (hq.engine_mem (.inr ⟨_,he⟩))
    have hstep := HwStep.halt (h := h.modify t Desc.clearEoq) he
    convert hstep using 1
    simp [Hw.modify,update_comm hb,hb,Ne.symm hb]

end DslG624t.Cpmac
