import DslG624t.Lib.CString

/-!
# Reading a variable out of the environment listing

`nsp_upg_getenv` goes through the listing one character at a time, with one work buffer for the
names and the values.
-/

namespace DslG624t.Upgrader

open CString List Option

def bootEnvVsz : ℕ := 1024
def bootEnvSz : ℕ := 8000

inductive EnvState
  | start
  | name
  | value
  deriving DecidableEq

/-- The variables of the loop, and the work buffer `b`. -/
structure Scan where
  s : EnvState
  d : ℕ
  nl : ℕ
  vl : ℕ
  b : Bytes

def store (m : Bytes) (i : ℕ) (c : UInt8) : Option Bytes :=
  if i < m.length then some (m.set i c) else none

def sameName (n b : Bytes) : Option Bool :=
  if 0 ∈ b then some (strcmp n b == 0) else none

/-- The loop that copies `b` to the caller's buffer. -/
def copyBytes (b : Bytes) : ℕ → ℕ → Bytes → Option Bytes
  | 0, _, v => some v
  | k+1, i, v => do
    let c ← b[i]?
    let v ← store v i c
    copyBytes b k (i+1) v

/-- The first `vl` characters of `b`, cut off to fit, and the terminator. A null pointer is left
alone. -/
def copyOut (vs : ℕ) (b : Bytes) (vl : ℕ) : Option Bytes → Option (Option Bytes)
  | none => some none
  | some v =>
    if vs = 0 then some (some v)
    else do
      let t := if vs ≤ vl then vs-1 else vl
      let v ← copyBytes b t 0 v
      let v ← store v t 0
      some (some v)

inductive Next
  | more (x : Scan)
  | found (v : Option Bytes)

def lineEnd (c : UInt8) : Bool := c = 0 || c = 0x0a || c = 0x0d
def blank (c : UInt8) : Bool := c = 0x09 || c = 0x20

/-- The body of the loop, behind its checks. -/
def scanStep (n : Bytes) (v : Option Bytes) (vs : ℕ) (c : UInt8) (x : Scan) : Option Next := do
  let b ← store x.b x.d 0
  if lineEnd c then
    match x.s with
    | .start => some (.more { x with s := .name, d := 0, b })
    | .name =>
      if x.nl = 0 then some (.more { x with b })
      else if ← sameName n b then .found <$> copyOut vs b 0 v
      else some (.more { x with d := 0, nl := 0, vl := 0, b })
    | .value => .found <$> copyOut vs b x.vl v
  else if blank c then
    match x.s with
    | .start => some (.more { x with d := 0, nl := 0, vl := 0, b })
    | .name =>
      if x.nl = 0 then some (.more { x with d := 0, b })
      else if ← sameName n b then some (.more { x with s := .value, d := 0, vl := 0, b })
      else some (.more { x with s := .start, d := 0, nl := 0, vl := 0, b })
    -- the count of the value is kept
    | .value => some (.more { x with d := 0, b })
  else
    let x := match x.s with
      | .start => { x with d := 0, nl := 0, vl := 0 }
      | .name => { x with nl := x.nl+1 }
      | .value => { x with vl := x.vl+1 }
    let b ← store b x.d c
    some (.more { x with d := x.d+1, b })

inductive EnvResult
  | error
  | found (v : Option Bytes)
  deriving DecidableEq

def scanLoop (n : Bytes) (v : Option Bytes) (vs : ℕ) : Bytes → Scan → Option EnvResult
  | [], _ => some .error
  | c :: cs, x =>
    if bootEnvVsz ≤ x.d then some .error
    else do
      match ← scanStep n v vs c x with
      | .more x => scanLoop n v vs cs x
      | .found v => some (.found v)

/-- What the calls give: the work buffers, with their contents where it matters, and the listing. -/
structure EnvCalls where
  mallocA : Bool
  mallocB : Option Bytes
  read : Option Bytes

def nspUpgGetenv (io : EnvCalls) (n : Bytes) (v : Option Bytes) (vs : ℕ) : Option EnvResult :=
  match io.mallocA, io.mallocB, io.read with
  | true, some b, some a => scanLoop n v vs (a.take bootEnvSz) ⟨.name,0,0,0,b⟩
  | _, _, _ => some .error

structure EnvLine where
  name : Bytes
  pad : Bytes
  value : Bytes
  name_ne : name ≠ []
  name_char : ∀ c ∈ name, lineEnd c = false ∧ blank c = false
  pad_ne : pad ≠ []
  pad_blank : ∀ c ∈ pad, blank c = true
  value_char : ∀ c ∈ value, lineEnd c = false
  value_head : ∀ c ∈ value.head?, blank c = false
  value_length : value.length ≤ 1000

def EnvLine.text (l : EnvLine) : Bytes := l.name ++ l.pad ++ l.value ++ [0x0a]

def listing (lines : List EnvLine) : Bytes := lines.flatMap EnvLine.text

def lastWord (value : Bytes) : Bytes := value.rtakeWhile fun c => !blank c

variable {n b w : Bytes} {v : Option Bytes} {vs : ℕ} {c : UInt8} {x : Scan} {s : EnvState}
  {m p pad : Bytes}

lemma store_at (h : w <+: b) (hlt : w.length < b.length) (c : UInt8) :
    ∃ b', store b w.length c = some b' ∧ w ++ [c] <+: b' ∧ b'.length = b.length := by
  obtain ⟨t,rfl⟩ := h
  cases t with
  | nil => simp at hlt
  | cons y t =>
    refine ⟨w ++ c :: t,?_,⟨t,by simp⟩,by simp⟩
    rw [store,if_pos hlt,set_append_right _ _ le_rfl,Nat.sub_self,set_cons_zero]

/-- The buffer starts with `w`, and the next character goes behind it. -/
structure At (x : Scan) (s : EnvState) (w : Bytes) : Prop where
  s : x.s = s
  d : x.d = w.length
  length : x.b.length = bootEnvVsz
  word : w <+: x.b

lemma At.stub (h : At x s w) (hlt : w.length < bootEnvVsz) :
    ∃ b, store x.b x.d 0 = some b ∧ b.length = bootEnvVsz ∧ w ++ [0] <+: b := by
  obtain ⟨b,hb,hword,hlen⟩ := store_at h.word (h.length ▸ hlt) 0
  exact ⟨b,h.d ▸ hb,hlen.trans h.length,hword⟩

lemma sameName_of_word (hw : NulFree w) (h : w ++ [0] <+: b) :
    sameName n b = some (decide (cstr n = w)) := by
  obtain ⟨t,rfl⟩ := h
  have hcmp := strcmp_eq_zero_iff n (w ++ [0] ++ t)
  rw [append_assoc,singleton_append,cstr_append_nul hw] at hcmp
  rw [sameName,if_pos (by simp)]
  exact congrArg some (Bool.eq_iff_iff.mpr (by simpa using hcmp))

lemma At.write (h : At x s w) (hlt : w.length < bootEnvVsz) (c : UInt8) :
    ∃ b, ((store x.b x.d 0).bind fun b => store b x.d c) = some b ∧ b.length = bootEnvVsz ∧
      w ++ [c] <+: b := by
  obtain ⟨b0,hb0,hlen0,hword0⟩ := h.stub hlt
  obtain ⟨b,hb,hword,hlen⟩ :=
    store_at ((prefix_append w [0]).trans hword0) (hlen0 ▸ hlt) c
  refine ⟨b,?_,hlen.trans hlen0,hword⟩
  rw [hb0,bind_some,h.d,hb]

lemma scanLoop_cons (hd : x.d < bootEnvVsz) {x' : Scan}
    (hstep : scanStep n v vs c x = some (.more x')) (rest : Bytes) :
    scanLoop n v vs (c :: rest) x = scanLoop n v vs rest x' := by
  rw [scanLoop,if_neg (not_le.mpr hd),hstep]
  rfl

lemma scanLoop_found (hd : x.d < bootEnvVsz) {v' : Option Bytes}
    (hstep : scanStep n v vs c x = some (.found v')) (rest : Bytes) :
    scanLoop n v vs (c :: rest) x = some (.found v') := by
  rw [scanLoop,if_neg (not_le.mpr hd),hstep]
  rfl

lemma scanLoop_full (hd : bootEnvVsz ≤ x.d) (cs : Bytes) : scanLoop n v vs cs x = some .error := by
  cases cs with
  | nil => rfl
  | cons c cs => rw [scanLoop,if_pos hd]

lemma scanLoop_append {I : Bytes → Scan → Prop} {cs : Bytes} (hinit : I [] x)
    (hstep : ∀ p c x, p ++ [c] <+: cs → I p x →
      x.d < bootEnvVsz ∧ ∃ x', scanStep n v vs c x = some (.more x') ∧ I (p ++ [c]) x')
    (rest : Bytes) :
    ∃ x', I cs x' ∧ scanLoop n v vs (cs ++ rest) x = scanLoop n v vs rest x' := by
  induction cs using reverseRecOn generalizing rest with
  | nil => exact ⟨x,hinit,rfl⟩
  | append_singleton cs c ih =>
    obtain ⟨x1,hx1,hloop1⟩ := ih
      (fun p c x hp => hstep p c x (hp.trans (prefix_append cs _))) (c :: rest)
    obtain ⟨hd,x2,hx2,hI⟩ := hstep cs c x1 prefix_rfl hx1
    refine ⟨x2,hI,?_⟩
    rw [append_assoc,singleton_append,hloop1,scanLoop_cons hd hx2]

structure Ready (x : Scan) : Prop where
  s : x.s = .name
  d : x.d = 0
  nl : x.nl = 0
  length : x.b.length = bootEnvVsz

variable (n v vs) in
lemma scan_name (hx : Ready x) (hp : ∀ c ∈ p, lineEnd c = false ∧ blank c = false)
    (hlen : p.length ≤ bootEnvVsz) (rest : Bytes) :
    ∃ x', (At x' .name p ∧ x'.nl = p.length) ∧
      scanLoop n v vs (p ++ rest) x = scanLoop n v vs rest x' := by
  refine scanLoop_append (I := fun p x => At x .name p ∧ x.nl = p.length)
    ⟨⟨hx.s,hx.d,hx.length, nil_prefix⟩,hx.nl⟩ ?_ rest
  rintro q c x hq ⟨hat,hnl⟩
  have hlt : q.length < bootEnvVsz := by
    have := hq.length_le
    simp only [length_append,length_singleton] at this
    omega
  obtain ⟨hend,hblank⟩ := hp c (hq.subset (by simp))
  obtain ⟨b,hb,hblen,hword⟩ := hat.write hlt c
  refine ⟨hat.d ▸ hlt,⟨.name,x.d+1,x.nl+1,x.vl,b⟩,?_,⟨rfl,?_,hblen,hword⟩,?_⟩
  · obtain ⟨b0,hb0,hb⟩ := bind_eq_some_iff.mp hb
    simp [scanStep,hb0,hend,hblank,hat.s,hb]
  · simp [hat.d]
  · simp [hnl]

structure Skipping (x : Scan) : Prop where
  s : x.s = .start
  d : x.d ≤ 1
  nl : x.nl = 0
  length : x.b.length = bootEnvVsz

lemma store_lt {i : ℕ} (h : i < b.length) (c : UInt8) :
    ∃ b', store b i c = some b' ∧ b'.length = b.length :=
  ⟨b.set i c,if_pos h,length_set⟩

lemma scan_skip (hx : Skipping x) (hp : ∀ c ∈ p, lineEnd c = false) (rest : Bytes) :
    ∃ x', Ready x' ∧ scanLoop n v vs (p ++ 0x0a :: rest) x = scanLoop n v vs rest x' := by
  have hstep : ∀ q c x, q ++ [c] <+: p → Skipping x → x.d < bootEnvVsz ∧
      ∃ x', scanStep n v vs c x = some (.more x') ∧ Skipping x' := by
    intro q c x hq hx
    have hd : x.d < bootEnvVsz := hx.d.trans_lt (by decide)
    refine ⟨hd,?_⟩
    obtain ⟨b0,hb0,hlen0⟩ := store_lt (hx.length ▸ hd) 0
    have hend := hp c (hq.subset (by simp))
    by_cases hblank : blank c = true
    · exact ⟨⟨.start,0,0,0,b0⟩,by simp [scanStep,hb0,hend,hblank,hx.s],rfl,Nat.zero_le 1,
        rfl,hlen0.trans hx.length⟩
    · obtain ⟨b1,hb1,hlen1⟩ := store_lt (b := b0) (i := 0) (by rw [hlen0,hx.length]; decide) c
      exact ⟨⟨.start,1,0,0,b1⟩,by simp [scanStep,hb0,hend,hblank,hx.s,hb1],rfl,le_rfl,
        rfl,hlen1.trans (hlen0.trans hx.length)⟩
  obtain ⟨x1,hx1,hloop⟩ := scanLoop_append (I := fun _ => Skipping) hx hstep (0x0a :: rest)
  have hd : x1.d < bootEnvVsz := hx1.d.trans_lt (by decide)
  obtain ⟨b,hb,hlen⟩ := store_lt (hx1.length ▸ hd) 0
  refine ⟨⟨.name,0,x1.nl,x1.vl,b⟩,⟨rfl,rfl,hx1.nl,hlen.trans hx1.length⟩,?_⟩
  rw [hloop,scanLoop_cons hd]
  simp [scanStep,hb,lineEnd,hx1.s]

/-- The buffer holds what came behind the last blank, and `vl` counts across the blanks. -/
structure InValue (x : Scan) (p : Bytes) : Prop where
  at_word : At x .value (lastWord p)
  le_vl : (lastWord p).length ≤ x.vl
  vl_le : x.vl ≤ p.countP fun c => !blank c

lemma lastWord_concat (p : Bytes) (c : UInt8) :
    lastWord (p ++ [c]) = if blank c then [] else lastWord p ++ [c] := by
  rw [lastWord,rtakeWhile_concat]
  cases blank c <;> rfl

lemma scan_value (hx : InValue x []) (hp : ∀ c ∈ p, lineEnd c = false)
    (hlen : p.countP (fun c => !blank c) < bootEnvVsz) (rest : Bytes) :
    ∃ x', InValue x' p ∧ scanLoop n v vs (p ++ rest) x = scanLoop n v vs rest x' := by
  refine scanLoop_append (I := fun p x => InValue x p) hx ?_ rest
  intro q c x hq hx
  have hvl := hx.vl_le
  have hlt : (lastWord q).length < bootEnvVsz := by
    have hcount := ((prefix_append q [c]).trans hq).sublist.countP_le (p := fun c => !blank c)
    have := hx.le_vl
    omega
  have hend := hp c (hq.subset (by simp))
  refine ⟨hx.at_word.d ▸ hlt,?_⟩
  cases hblank : blank c with
  | true =>
    obtain ⟨b,hb,hblen,hword⟩ := hx.at_word.stub hlt
    refine ⟨⟨.value,0,x.nl,x.vl,b⟩,by simp [scanStep,hb,hend,hblank,hx.at_word.s],?_⟩
    have hw : lastWord (q ++ [c]) = [] := by rw [lastWord_concat,if_pos hblank]
    refine ⟨?_,by simp [hw],by simpa [hblank] using hvl⟩
    rw [hw]
    exact ⟨rfl,rfl,hblen, nil_prefix⟩
  | false =>
    obtain ⟨b,hb,hblen,hword⟩ := hx.at_word.write hlt c
    obtain ⟨b0,hb0,hb⟩ := bind_eq_some_iff.mp hb
    refine ⟨⟨.value,x.d+1,x.nl,x.vl+1,b⟩,by simp [scanStep,hb0,hend,hblank,hx.at_word.s,hb],?_⟩
    have hw : lastWord (q ++ [c]) = lastWord q ++ [c] := by simp [lastWord_concat,hblank]
    refine ⟨?_,by simpa [hw] using hx.le_vl,by simpa [hblank] using hvl⟩
    rw [hw]
    exact ⟨rfl,by simp [hx.at_word.d],hblen,hword⟩

lemma copyBytes_eq (k i : ℕ) (hb : i+k ≤ b.length) (hm : i+k ≤ m.length) :
    copyBytes b k i m = some (m.take i ++ (b.drop i).take k ++ m.drop (i+k)) := by
  induction k generalizing i m with
  | zero => simp [copyBytes]
  | succ k ih =>
    have hib : i < b.length := by omega
    have him : i < m.length := by omega
    rw [copyBytes,getElem?_eq_getElem hib,bind_eq_bind,bind_some,store,
      if_pos him,bind_eq_bind,bind_some,ih (i+1) (by omega) (by rw [length_set]; omega)]
    have htake : (m.set i b[i]).take (i+1) = m.take i ++ [b[i]] := by
      rw [take_set,take_succ_eq_append_getElem him,
        set_append_right _ _ (by rw [length_take]; omega)]
      simp [him.le]
    rw [htake,drop_set_of_lt (by omega),drop_eq_getElem_cons hib,take_succ_cons,
      show i+1+k = i+(k+1) by omega]
    simp

lemma copyOut_word {vl : ℕ} (hm : m ≠ []) (hword : w ++ [0] <+: b) (hw : w.length ≤ vl)
    (hvl : vl ≤ b.length) :
    ∃ m', copyOut m.length b vl (some m) = some (some m') ∧ m'.length = m.length ∧
      w.take (m.length-1) ++ [0] <+: m' := by
  have hpos : 0 < m.length := length_pos_iff.mpr hm
  have ht : ∃ t, t = (if m.length ≤ vl then m.length-1 else vl) ∧ t < m.length ∧ t ≤ vl ∧
      w.take (m.length-1) = w.take t := by
    refine ⟨_,rfl,?_⟩
    split
    · exact ⟨by omega,by omega,rfl⟩
    · exact ⟨by omega,le_rfl,by rw [take_of_length_le hw,take_of_length_le (by omega)]⟩
  obtain ⟨t,ht,htlt,htvl,hcut⟩ := ht
  have hcopy := copyBytes_eq (b := b) (m := m) t 0 (by omega) (by omega)
  simp only [take_zero,nil_append,drop_zero,zero_add] at hcopy
  have hlen : (b.take t).length = t := length_take_of_le (by omega)
  obtain ⟨m',hm',hpre,hlen'⟩ := store_at (prefix_append (b.take t) (m.drop t))
    (by simp; omega) 0
  rw [hlen] at hm'
  refine ⟨m',?_,hlen'.trans (by simp; omega),?_⟩
  · simp [copyOut,hpos.ne',← ht,hcopy,hm']
  rw [hcut]
  obtain ⟨r,rfl⟩ := hword
  rcases lt_or_ge t (w.length+1) with hlt | hge
  · rw [append_assoc,take_append_of_le_length (by omega)] at hpre
    exact hpre
  · refine List.IsPrefix.trans ?_ ((prefix_append _ [0]).trans hpre)
    rw [take_of_length_le (by omega : w.length ≤ t),take_append,
      take_of_length_le (by simpa using hge)]
    exact prefix_append _ _

lemma lineEnd_zero_notMem (hp : ∀ c ∈ p, lineEnd c = false) : NulFree p := by
  intro hmem
  cases hp 0 hmem

lemma lastWord_pad (hpad : ∀ c ∈ pad, blank c = true) (value : Bytes) :
    lastWord (pad ++ value) = lastWord value := by
  induction value using reverseRecOn with
  | nil =>
    rw [append_nil]
    cases pad using reverseRecOn with
    | nil => rfl
    | append_singleton pad c => rw [lastWord_concat,if_pos (hpad c (by simp))]; rfl
  | append_singleton value c ih => rw [← append_assoc,lastWord_concat,ih,lastWord_concat]

variable (l : EnvLine)

lemma EnvLine.scan_long (hx : Ready x) (hlong : bootEnvVsz ≤ l.name.length)
    (rest : Bytes) : scanLoop n v vs (l.text ++ rest) x = some .error := by
  have hchar : ∀ c ∈ l.name.take bootEnvVsz, lineEnd c = false ∧ blank c = false :=
    fun c hc => l.name_char c (mem_of_mem_take hc)
  obtain ⟨x',⟨hat,-⟩,hloop⟩ := scan_name n v vs hx hchar
    (length_take_le _ _) (l.name.drop bootEnvVsz ++ (l.pad ++ l.value ++ [0x0a] ++ rest))
  have htext : l.text ++ rest = l.name.take bootEnvVsz ++
      (l.name.drop bootEnvVsz ++ (l.pad ++ l.value ++ [0x0a] ++ rest)) := by
    rw [← append_assoc,take_append_drop]
    simp [EnvLine.text]
  rw [htext,hloop,scanLoop_full]
  rw [hat.d,length_take_of_le hlong]

lemma lineEnd_of_blank (h : blank c = true) : lineEnd c = false := by
  simp only [blank,Bool.or_eq_true,decide_eq_true_eq] at h
  rcases h with rfl | rfl <;> rfl

lemma EnvLine.scan_to_pad (hx : Ready x) (hlen : l.name.length < bootEnvVsz)
    (rest : Bytes) :
    ∃ nl b pad, (b.length = bootEnvVsz ∧ (∀ c ∈ pad, blank c = true)) ∧
      scanLoop n v vs (l.text ++ rest) x = scanLoop n v vs (pad ++ l.value ++ 0x0a :: rest)
        (if cstr n = l.name then ⟨.value,0,nl,0,b⟩ else ⟨.start,0,0,0,b⟩) := by
  obtain ⟨c,pad,hpad⟩ := exists_cons_of_ne_nil l.pad_ne
  have hblank := l.pad_blank c (by simp [hpad])
  obtain ⟨x',⟨hat,hnl⟩,hloop⟩ := scan_name n v vs hx l.name_char hlen.le
    (c :: pad ++ l.value ++ 0x0a :: rest)
  obtain ⟨b,hb,hblen,hword⟩ := hat.stub hlen
  have hsame := sameName_of_word (n := n)
    (lineEnd_zero_notMem fun c hc => (l.name_char c hc).1) hword
  have hne : x'.nl ≠ 0 := by simpa [hnl] using l.name_ne
  refine ⟨x'.nl,b,pad,⟨hblen,fun c' hc' => l.pad_blank c' (by simp [hpad,hc'])⟩,?_⟩
  have htext : l.text ++ rest = l.name ++ (c :: pad ++ l.value ++ 0x0a :: rest) := by
    simp [EnvLine.text,hpad]
  rw [htext,hloop,cons_append,cons_append]
  refine scanLoop_cons (hat.d ▸ hlen) ?_ _
  by_cases hname : cstr n = l.name <;>
    simp [scanStep,hb,lineEnd_of_blank hblank,hblank,hat.s,hne,hsame,hname]

lemma EnvLine.rest_char (hpad : ∀ c ∈ pad, blank c = true) :
    ∀ c ∈ pad ++ l.value, lineEnd c = false := by
  intro c hc
  rcases mem_append.mp hc with hmem | hmem
  · exact lineEnd_of_blank (hpad c hmem)
  · exact l.value_char c hmem

lemma EnvLine.scan_other (hx : Ready x) (hlen : l.name.length < bootEnvVsz)
    (hname : cstr n ≠ l.name) (rest : Bytes) :
    ∃ x', Ready x' ∧ scanLoop n v vs (l.text ++ rest) x = scanLoop n v vs rest x' := by
  obtain ⟨nl,b,pad,⟨hblen,hpad⟩,hloop⟩ := l.scan_to_pad hx hlen rest
  rw [if_neg hname] at hloop
  obtain ⟨x',hx',hskip⟩ := scan_skip (x := ⟨.start,0,0,0,b⟩) ⟨rfl,Nat.zero_le 1,rfl,hblen⟩
    (l.rest_char hpad) rest
  exact ⟨x',hx',hloop.trans hskip⟩

lemma EnvLine.scan_found (hm : m ≠ []) (hx : Ready x)
    (hlen : l.name.length < bootEnvVsz) (hname : cstr n = l.name) (rest : Bytes) :
    ∃ m', scanLoop n (some m) m.length (l.text ++ rest) x = some (.found (some m')) ∧
      m'.length = m.length ∧ (lastWord l.value).take (m.length-1) ++ [0] <+: m' := by
  obtain ⟨nl,b,pad,⟨hblen,hpad⟩,hloop⟩ := l.scan_to_pad hx hlen rest
  rw [if_pos hname] at hloop
  have hcount : (pad ++ l.value).countP (fun c => !blank c) ≤ 1000 := by
    have hzero : pad.countP (fun c => !blank c) = 0 :=
      countP_eq_zero.mpr fun c hc => by simp [hpad c hc]
    rw [countP_append,hzero,zero_add]
    exact countP_le_length.trans l.value_length
  obtain ⟨x2,hx2,hvalue⟩ := scan_value (x := ⟨.value,0,nl,0,b⟩)
    ⟨⟨rfl,rfl,hblen, nil_prefix⟩,le_rfl,le_rfl⟩ (l.rest_char hpad)
    (hcount.trans_lt (by decide)) (0x0a :: rest)
  have hvl := hx2.vl_le.trans hcount
  have hlt : (lastWord (pad ++ l.value)).length < bootEnvVsz :=
    (hx2.le_vl.trans hvl).trans_lt (by decide)
  obtain ⟨b',hb',hblen',hword'⟩ := hx2.at_word.stub hlt
  obtain ⟨m',hm',hlen',hword⟩ := copyOut_word hm hword' hx2.le_vl
    (by rw [hblen']; exact hvl.trans (by decide))
  rw [lastWord_pad hpad] at hword
  refine ⟨m',(hloop.trans hvalue).trans ?_,hlen',hword⟩
  refine scanLoop_found (hx2.at_word.d ▸ hlt) ?_ rest
  simp [scanStep,hb',lineEnd,hx2.at_word.s,hm']

def firstLine (lines : List EnvLine) (n : Bytes) : Option EnvLine :=
  lines.find? fun l => l.name = cstr n

/-- The call finds the variable if the listing has it, and then the caller's buffer holds as much of
the value of its first line as fits, with a terminator. -/
def Correct (lines : List EnvLine) (n m : Bytes) : EnvResult → Prop
  | .error => firstLine lines n = none
  | .found none => False
  | .found (some m') => m'.length = m.length ∧ ∃ l, firstLine lines n = some l ∧
    l.value.take (m.length-1) ++ [0] <+: m'

/-- The names up to the first line of the variable fit into the work buffer, and what the caller's
buffer takes of the value is the same behind its last blank. -/
def Readable (lines : List EnvLine) (n m : Bytes) : Prop :=
  ∀ l, firstLine lines n = some l →
    (∀ k ∈ lines.takeWhile (fun k => k.name ≠ cstr n) ++ [l], k.name.length < bootEnvVsz) ∧
      l.value.take (m.length-1) = (lastWord l.value).take (m.length-1)

lemma eq_of_terminated {p q m : Bytes} (hp : NulFree p) (hq : NulFree q) (hpm : p ++ [0] <+: m)
    (hqm : q ++ [0] <+: m) : p = q := by
  obtain ⟨s,rfl⟩ := hpm
  obtain ⟨t,ht⟩ := hqm
  rw [append_assoc,append_assoc] at ht
  exact (cstr_append_nul hp s).symm.trans ((congrArg cstr ht.symm).trans (cstr_append_nul hq t))

lemma EnvLine.nulFree_take (t : ℕ) :
    NulFree (l.value.take t) ∧ NulFree ((lastWord l.value).take t) := by
  have hvalue := lineEnd_zero_notMem l.value_char
  refine ⟨fun h => hvalue (mem_of_mem_take h),fun h => hvalue ?_⟩
  exact (rtakeWhile_suffix _ _).subset (mem_of_mem_take h)

lemma scanLoop_listing (hm : m ≠ []) (lines : List EnvLine) (hx : Ready x) :
    ∃ r, scanLoop n (some m) m.length (listing lines) x = some r ∧
      (Correct lines n m r ↔ Readable lines n m) := by
  induction lines generalizing x with
  | nil => exact ⟨.error,rfl,iff_of_true rfl nofun⟩
  | cons l lines ih =>
    change ∃ r, scanLoop n (some m) m.length (l.text ++ listing lines) x = some r ∧ _
    by_cases hname : l.name = cstr n
    · have hfirst : firstLine (l :: lines) n = some l := by simp [firstLine,hname]
      have hread : Readable (l :: lines) n m ↔ l.name.length < bootEnvVsz ∧
          l.value.take (m.length-1) = (lastWord l.value).take (m.length-1) := by
        simp [Readable,hfirst,hname]
      rcases lt_or_ge l.name.length bootEnvVsz with hlen | hlong
      · obtain ⟨m',hm',hlen',hword⟩ := l.scan_found hm hx hlen hname.symm (listing lines)
        refine ⟨_,hm',?_⟩
        rw [hread,and_iff_right hlen]
        constructor
        · rintro ⟨-,l',hl',hvalue⟩
          cases hfirst.symm.trans hl'
          obtain ⟨hnul,hnul'⟩ := l.nulFree_take (m.length-1)
          exact eq_of_terminated hnul hnul' hvalue hword
        · intro heq
          exact ⟨hlen',l,hfirst,heq ▸ hword⟩
      · refine ⟨_,l.scan_long hx hlong _,iff_of_false ?_ ?_⟩
        · simp [Correct,hfirst]
        · exact fun h => not_lt.mpr hlong (hread.mp h).1
    have hfirst : firstLine (l :: lines) n = firstLine lines n := by simp [firstLine,hname]
    rcases lt_or_ge l.name.length bootEnvVsz with hlen | hlong
    · obtain ⟨x',hx',hloop⟩ := l.scan_other hx hlen (Ne.symm hname) (listing lines)
      obtain ⟨r,hr,hiff⟩ := ih hx'
      refine ⟨r,hloop.trans hr,?_⟩
      have hcorrect : Correct (l :: lines) n m r ↔ Correct lines n m r := by
        unfold Correct
        rw [hfirst]
      rw [hcorrect,hiff]
      simp [Readable,hfirst,hname,hlen]
    refine ⟨_,l.scan_long hx hlong _,?_⟩
    rw [Correct,hfirst]
    constructor
    · intro hnone l' hl'
      cases hnone.symm.trans (hfirst.symm.trans hl')
    intro hread
    rw [eq_none_iff_forall_ne_some]
    intro l' hl'
    have hshort := (hread l' (hfirst.trans hl')).1 l (by simp [hname])
    omega

/-- Every access is inside of its buffer, and the result is correct exactly for what is
`Readable`. -/
theorem getenv_correct_iff (lines : List EnvLine) (n b m : Bytes)
    (hsize : (listing lines).length ≤ bootEnvSz) (hb : b.length = bootEnvVsz) (hm : m ≠ []) :
    ∃ r, nspUpgGetenv ⟨true,some b,some (listing lines)⟩ n (some m) m.length = some r ∧
      (Correct lines n m r ↔ Readable lines n m) := by
  simp only [nspUpgGetenv,take_of_length_le hsize]
  exact scanLoop_listing hm lines ⟨rfl,rfl,rfl,hb⟩

def macLine (value : Bytes) (hchar : ∀ c ∈ value, lineEnd c = false)
    (hhead : ∀ c ∈ value.head?, blank c = false) (hlength : value.length ≤ 1000) : EnvLine :=
  ⟨ofString "mac",[0x09],value,by decide,by decide +kernel,by decide,by decide +kernel,hchar,
    hhead,hlength⟩

def oneWord : EnvLine := macLine (ofString "on") (by decide +kernel) (by decide +kernel) (by decide)
def twoWords : EnvLine := macLine (ofString "a b") (by decide +kernel) (by decide +kernel) (by decide)

theorem getenv_correct_oneWord :
    ∃ r, nspUpgGetenv ⟨true,some (List.replicate bootEnvVsz 0),some (listing [oneWord])⟩
      (ofString "mac") (some [0,0,0,0]) 4 = some r ∧
      Correct [oneWord] (ofString "mac") [0,0,0,0] r := by
  obtain ⟨r,hr,hiff⟩ := getenv_correct_iff [oneWord] (ofString "mac")
    (replicate bootEnvVsz 0) [0,0,0,0] (by decide) length_replicate (by decide)
  refine ⟨r,hr,hiff.mpr fun l hl => ?_⟩
  cases hl
  decide

/-- Of `a b` only the second word arrives. -/
theorem getenv_loses_word :
    nspUpgGetenv ⟨true,some (List.replicate bootEnvVsz 0),some (listing [twoWords])⟩
      (ofString "mac") (some [0,0,0,0]) 4 = some (.found (some [0x62,0,0,0])) ∧
      ¬ Correct [twoWords] (ofString "mac") [0,0,0,0] (.found (some [0x62,0,0,0])) := by
  refine ⟨by decide +kernel,?_⟩
  rintro ⟨-,l,hl,hvalue⟩
  cases hl
  exact absurd hvalue (by decide)

end DslG624t.Upgrader
