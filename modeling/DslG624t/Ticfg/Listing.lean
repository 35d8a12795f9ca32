import DslG624t.Ticfg.ProcRead

/-!
# What a reader of the environment sees

A store that numbers its variables from 0 on, without gaps, presents a list of lines, and each
read returns as many of them as fit.
-/

namespace DslG624t.Ticfg

open CString List Option

def pageCount (count : ℕ) : ℕ → List Bytes → ℕ
  | _, [] => 0
  | used, line :: lines =>
    if used+line.length+80 ≤ count then pageCount count (used+line.length) lines+1 else 0

/-- How many lines one read returns, `used` bytes of it being on the current page. -/
def readCount : ℕ → ℕ → List Bytes → ℕ
  | _, _, [] => 0
  | nbytes, used, line :: lines =>
    if used+line.length+80 ≤ min procBlockSize nbytes then
      readCount nbytes (used+line.length) lines+1
    else if line.length+80 ≤ min procBlockSize (nbytes-used) then
      readCount (nbytes-used) line.length lines+1
    else 0

/-- The outcome of reads behind the lines `done`. -/
def outcome : List Bytes → List Bytes → List ReadSize → Outcome
  | _, _, [] => .unfinished
  | done, rest, n :: ns =>
    let k := readCount n 0 rest
    if n.1 < 80 then .error
    else if k = 0 then .eof done.flatten
    else outcome (done ++ rest.take k) (rest.drop k) ns

/-- Every read has 80 bytes more than the next line needs, and as much as a block of `/proc` lets
it have. -/
def Served : List Bytes → List ReadSize → Prop
  | _, [] => True
  | [], n :: _ => 80 ≤ n.1
  | line :: lines, n :: ns =>
    line.length+80 ≤ min procBlockSize n ∧
      Served ((line :: lines).drop (readCount n 0 (line :: lines))) ns

variable {n : ℕ} {sizes : List ReadSize} {rest : List Bytes}

lemma pageCount_fits (count used : ℕ) (lines : List Bytes)
    (h : pageCount count used lines ≠ 0) :
    used+((lines.take (pageCount count used lines)).flatten).length+80 ≤ count := by
  induction lines generalizing used with
  | nil => exact absurd rfl h
  | cons line lines ih =>
    rw [pageCount] at h ⊢
    split at h
    · next hfit =>
      rw [if_pos hfit,take_succ_cons,flatten_cons,length_append]
      by_cases h0 : pageCount count (used+line.length) lines = 0
      · rw [h0]
        simpa using hfit
      · have hrest := ih (used+line.length) h0
        omega
    · exact absurd rfl h

lemma readCount_page (nbytes used : ℕ) (lines : List Bytes) :
    readCount nbytes used lines =
      pageCount (min procBlockSize nbytes) used lines +
        readCount
          (nbytes-(used +
            ((lines.take (pageCount (min procBlockSize nbytes) used lines)).flatten).length)) 0
          (lines.drop (pageCount (min procBlockSize nbytes) used lines)) := by
  induction lines generalizing used with
  | nil => rfl
  | cons line lines ih =>
    rw [readCount,pageCount]
    by_cases hfit : used+line.length+80 ≤ min procBlockSize nbytes
    · rw [if_pos hfit,if_pos hfit,ih,take_succ_cons,drop_succ_cons,
        flatten_cons,length_append,add_right_comm,add_assoc used]
    · -- the page is full: the read goes on with a new one
      simp only [if_neg hfit,take_zero,drop_zero,flatten_nil,length_nil,
        Nat.zero_add,Nat.add_zero,readCount,Nat.sub_zero]
      split <;> rfl

lemma readCount_cons_eq_zero {line : Bytes} {lines : List Bytes} :
    readCount n 0 (line :: lines) = 0 ↔ ¬ line.length+80 ≤ min procBlockSize n := by
  rw [readCount,Nat.zero_add,Nat.sub_zero]
  split
  · next h => simpa using h
  · next h => simpa using h

lemma readCount_eq_zero {lines : List Bytes} (h : pageCount (min procBlockSize n) 0 lines = 0) :
    readCount n 0 lines = 0 := by
  cases lines with
  | nil => rfl
  | cons line lines =>
    rw [pageCount,zero_add] at h
    refine readCount_cons_eq_zero.mpr fun hfit => ?_
    rw [if_pos hfit] at h
    cases h

lemma readCount_of_lt (hn : n < 80) (lines : List Bytes) : readCount n 0 lines = 0 := by
  cases lines with
  | nil => rfl
  | cons line lines => exact readCount_cons_eq_zero.mpr (by omega)

/-- The store presents its variables as these lines, in the order of their numbers. -/
structure Presents {M : Type} (api : EnvApi M) (fuel : ℕ) (m : M) (lines : List Bytes) : Prop where
  entry : ∀ pre line post, lines = pre ++ line :: post → ∃ pvar pval,
    api.getVariable fuel m pre.length = some (some pvar,m) ∧
      api.getValue fuel m pvar = some (some pval,m) ∧ line = formatLine pvar pval
  done : api.getVariable fuel m lines.length = some (none,m)

lemma length_formatLine (pvar pval : Bytes) :
    (formatLine pvar pval).length = pval.length+pvar.length+2 := by
  simp [formatLine]
  omega

section Reading

variable {M : Type} {api : EnvApi M} {fuel : ℕ} {m : M} {pre : List Bytes} {k steps nbytes : ℕ}
  {f : File M} {buf : Bytes}

lemma Presents.nonempty (h : Presents api fuel m (pre ++ rest)) : ∀ line ∈ pre ++ rest,
    line ≠ [] := by
  intro line hline
  obtain ⟨a,b,hab⟩ := append_of_mem hline
  obtain ⟨pvar,pval,-,-,rfl⟩ := h.entry a line b hab
  intro hnil
  have hlen := length_formatLine pvar pval
  rw [hnil] at hlen
  cases hlen

lemma pageLoop_presents (h : Presents api fuel m (pre ++ rest)) (count : ℕ)
    (hsteps : rest.length < steps) (text : Bytes) :
    pageLoop api fuel (count-80) steps m pre.length text =
      some (⟨pre.length+pageCount count text.length rest,
        text ++ (rest.take (pageCount count text.length rest)).flatten,
        decide (pageCount count text.length rest < rest.length)⟩,m) := by
  induction rest generalizing pre text steps with
  | nil =>
    obtain ⟨steps,rfl⟩ := Nat.exists_eq_add_of_lt hsteps
    have hdone := h.done
    rw [append_nil] at hdone
    rw [pageLoop,hdone]
    simp [pageCount]
  | cons line rest ih =>
    obtain ⟨steps,rfl⟩ : ∃ k, steps = k+1 := ⟨steps-1,by omega⟩
    obtain ⟨pvar,pval,hvar,hval,rfl⟩ := h.entry pre line rest rfl
    have hlen := length_formatLine pvar pval
    rw [pageLoop,hvar,bind_some]
    simp only [hval,bind_some]
    by_cases hfit : text.length+(formatLine pvar pval).length+80 ≤ count
    · have hpre : Presents api fuel m ((pre ++ [formatLine pvar pval]) ++ rest) := by
        rwa [append_assoc,singleton_append]
      have hnext := ih hpre (Nat.lt_of_succ_lt_succ hsteps) (text ++ formatLine pvar pval)
      rw [if_neg (by omega)]
      simp only [length_append,length_singleton] at hnext
      rw [hnext,pageCount,if_pos hfit]
      simp [add_assoc,add_comm 1]
    · rw [if_pos (by omega),pageCount,if_neg hfit]
      simp

/-- The file has been read behind the lines `pre`. -/
structure At (f : File M) (m : M) (pre : List Bytes) : Prop where
  store : f.store = m
  pos : f.pos = pre.flatten.length
  index : pre ≠ [] → f.lastIndex = pre.length

lemma At.start (hf : At f m pre) (h : Presents api fuel m (pre ++ rest)) :
    (if f.pos = 0 then 0 else f.lastIndex) = pre.length := by
  rw [hf.pos]
  cases pre with
  | nil => rfl
  | cons line pre =>
    have hline := h.nonempty line (mem_cons_self ..)
    have hpos : (line :: pre).flatten.length ≠ 0 := by
      rw [flatten_cons,length_append]
      have := length_pos_of_ne_nil hline
      omega
    rw [if_neg hpos]
    exact hf.index (cons_ne_nil line pre)

lemma ticfgProcReadEnv_presents (hf : At f m pre) (h : Presents api fuel m (pre ++ rest))
    (hfuel : rest.length < fuel) (count : ℕ) :
    ticfgProcReadEnv api fuel f count =
      some (⟨if pageCount count 0 rest = 0 then min 0 ((count : ℤ)-80)
        else ((rest.take (pageCount count 0 rest)).flatten).length,
        (rest.take (pageCount count 0 rest)).flatten,decide (rest.length ≤ pageCount count 0 rest)⟩,
        { f with lastIndex := pre.length+pageCount count 0 rest }) := by
  have hpage := pageLoop_presents h count hfuel []
  rw [ticfgProcReadEnv]
  simp only [hf.store,hf.start h,hpage,map_some,length_nil,nil_append]
  have hlen : (if ((rest.take (pageCount count 0 rest)).flatten.length : ℤ) > count-80 then
      (count : ℤ)-80 else (rest.take (pageCount count 0 rest)).flatten.length) =
      if pageCount count 0 rest = 0 then min 0 ((count : ℤ)-80)
        else (rest.take (pageCount count 0 rest)).flatten.length := by
    by_cases h0 : pageCount count 0 rest = 0
    · rw [if_pos h0,h0,take_zero,flatten_nil,length_nil]
      split <;> omega
    · have hfits := pageCount_fits count 0 rest h0
      rw [if_neg h0,if_neg (by omega)]
  have heof : (!decide (pageCount count 0 rest < rest.length)) =
      decide (rest.length ≤ pageCount count 0 rest) := by
    rw [← decide_not,decide_eq_decide,not_lt]
  rw [hlen,heof,← hf.store]

def retval (nbytes : ℕ) (buf : Bytes) : ℤ :=
  if buf = [] then min 0 ((nbytes : ℤ)-80) else buf.length

lemma retval_of_ne_nil (nbytes : ℕ) (h : buf ≠ []) : retval nbytes buf = buf.length := if_neg h

lemma At.lines (hf : At f m pre) (hrest : k ≤ rest.length) :
    At { f with pos := f.pos+(rest.take k).flatten.length, lastIndex := pre.length+k } m
      (pre ++ rest.take k) where
  store := hf.store
  pos := by rw [flatten_append,length_append,hf.pos]
  index _ := by rw [length_append,length_take,min_eq_left hrest]

lemma pageCount_le_length (count used : ℕ) (lines : List Bytes) :
    pageCount count used lines ≤ lines.length := by
  induction lines generalizing used with
  | nil => exact le_refl 0
  | cons line lines ih =>
    rw [pageCount]
    split
    · exact Nat.succ_le_succ (ih _)
    · exact Nat.zero_le _

lemma Presents.flatten_take_ne_nil (h : Presents api fuel m (pre ++ rest)) (hk : 0 < k)
    (hrest : rest ≠ []) : (rest.take k).flatten ≠ [] := by
  obtain ⟨line,lines,rfl⟩ := exists_cons_of_ne_nil hrest
  obtain ⟨k,rfl⟩ := Nat.exists_eq_succ_of_ne_zero (pos_iff_ne_zero.mp hk)
  have hline := h.nonempty line (mem_append_right _ mem_cons_self)
  rw [take_succ_cons,flatten_cons]
  exact append_ne_nil_of_left_ne_nil hline _

section

variable (hf : At f m pre) (h : Presents api fuel m (pre ++ rest)) (hfuel : rest.length < fuel)
include hf h hfuel

lemma fileLoop_empty (steps : ℕ) (hn : nbytes ≠ 0) (buf : Bytes)
    (h0 : pageCount (min procBlockSize nbytes) 0 rest = 0) :
    fileLoop api fuel (steps+1) f nbytes buf =
      some (retval nbytes buf,buf,{ f with lastIndex := pre.length }) := by
  have hblock : procBlockSize = 3072 := rfl
  have hbuf : buf.length = 0 ↔ buf = [] := length_eq_zero_iff
  rw [fileLoop,if_neg hn,ticfgProcReadEnv_presents hf h hfuel,bind_some]
  simp only [h0,if_true,add_zero,retval,hbuf]
  by_cases hsmall : nbytes < 80
  · rw [if_neg (by omega),if_pos (by omega)]
    rw [min_eq_right (by omega : nbytes ≤ procBlockSize),Int.min_eq_right (by omega)]
  have hzero : min 0 (((min procBlockSize nbytes : ℕ) : ℤ)-80) = 0 := by omega
  have hret : min 0 ((nbytes : ℤ)-80) = 0 := by omega
  rw [if_pos hzero,hret]
  split
  · next hnil => rw [hnil]; rfl
  · rfl

lemma fileLoop_page (steps : ℕ) (hn : nbytes ≠ 0) (buf : Bytes)
    (hk : pageCount (min procBlockSize nbytes) 0 rest = k) (h0 : 0 < (rest.take k).flatten.length) :
    fileLoop api fuel (steps+1) f nbytes buf =
      let f' := { f with
        pos := f.pos+(rest.take k).flatten.length, lastIndex := pre.length+k }
      if rest.length ≤ k then
        some (((buf ++ (rest.take k).flatten).length : ℤ),buf ++ (rest.take k).flatten,f')
      else fileLoop api fuel steps f' (nbytes-(rest.take k).flatten.length)
        (buf ++ (rest.take k).flatten) := by
  have hk0 : k ≠ 0 := by
    rintro rfl
    exact absurd h0 (by simp)
  rw [fileLoop,if_neg hn,ticfgProcReadEnv_presents hf h hfuel,bind_some]
  simp only [hk,if_neg hk0,Int.toNat_natCast,take_length,decide_eq_true_eq]
  rw [if_neg (by omega),if_neg (by omega)]

lemma fileLoop_presents (hsteps : rest.length < steps) (hstart : nbytes ≠ 0 ∨ buf ≠ []) :
    ∃ f', At f' m (pre ++ rest.take (readCount nbytes 0 rest)) ∧
      fileLoop api fuel steps f nbytes buf =
        some (retval nbytes (buf ++ (rest.take (readCount nbytes 0 rest)).flatten),
          buf ++ (rest.take (readCount nbytes 0 rest)).flatten,f') := by
  induction steps generalizing f pre rest nbytes buf with
  | zero => cases hsteps
  | succ steps ih =>
    by_cases hn : nbytes = 0
    · obtain hbuf := hstart.resolve_left (not_not.mpr hn)
      subst hn
      simp only [readCount_of_lt (Nat.zero_lt_succ 79),take_zero,flatten_nil,append_nil,fileLoop,
        if_true,retval_of_ne_nil 0 hbuf]
      exact ⟨f,hf,rfl⟩
    obtain hk | hk := eq_zero_or_pos (pageCount (min procBlockSize nbytes) 0 rest)
    · rw [readCount_eq_zero hk,fileLoop_empty hf h hfuel steps hn buf hk]
      simp only [take_zero,flatten_nil,append_nil]
      refine ⟨{ f with lastIndex := pre.length },⟨hf.store,hf.pos,fun _ => rfl⟩,rfl⟩
    have hpage := readCount_page nbytes 0 rest
    have hle := pageCount_le_length (min procBlockSize nbytes) 0 rest
    generalize hk' : pageCount (min procBlockSize nbytes) 0 rest = k at hk hpage hle
    have hne := h.flatten_take_ne_nil hk (ne_nil_of_length_pos (lt_of_lt_of_le hk hle))
    have hbuf : buf ++ (rest.take k).flatten ≠ [] := append_ne_nil_of_right_ne_nil buf hne
    rw [fileLoop_page hf h hfuel steps hn buf hk' (length_pos_of_ne_nil hne)]
    by_cases heof : rest.length ≤ k
    · rw [drop_eq_nil_of_le heof] at hpage
      obtain rfl : readCount nbytes 0 rest = k := hpage
      simp only [if_pos heof,retval_of_ne_nil nbytes hbuf]
      exact ⟨_,hf.lines hle,rfl⟩
    have hsplit : pre ++ rest = (pre ++ rest.take k) ++ rest.drop k := by
      rw [append_assoc,take_append_drop]
    have hdrop : (rest.drop k).length < rest.length := by
      rw [length_drop]
      omega
    obtain ⟨f',hf',heq⟩ := ih (hf.lines hle) (hsplit ▸ h) (by omega) (by omega) (.inr hbuf)
    rw [zero_add] at hpage
    simp only [if_neg heof]
    rw [hpage,take_add,flatten_append,← append_assoc,← append_assoc]
    have hbuf' := fun x => append_ne_nil_of_left_ne_nil hbuf x
    rw [retval_of_ne_nil _ (hbuf' _)] at heq ⊢
    exact ⟨f',hf',heq⟩

lemma readAll_eq (sizes : List ReadSize) :
    readAll api fuel f sizes pre.flatten = some (outcome pre rest sizes) := by
  induction sizes generalizing f pre rest with
  | nil => rfl
  | cons n ns ih =>
    have hstart : n.1 ≠ 0 ∨ ([] : Bytes) ≠ [] := .inl (pos_iff_ne_zero.mp n.2.1)
    obtain ⟨f',hf',heq⟩ := fileLoop_presents hf h hfuel hfuel hstart
    rw [nil_append] at heq
    rw [readAll,procFileRead,heq,bind_some,outcome]
    by_cases hsmall : n.1 < 80
    · simp only [readCount_of_lt hsmall,take_zero,flatten_nil,retval,if_true,if_pos hsmall]
      rw [if_pos (by omega)]
    rw [if_neg hsmall]
    obtain h0 | hk := eq_zero_or_pos (readCount n 0 rest)
    · have hret : min 0 ((n.1 : ℤ)-80) = 0 := by omega
      simp only [h0,take_zero,flatten_nil,retval,if_true,hret]
      rfl
    have hrest : rest ≠ [] := by
      rintro rfl
      cases hk
    have hne := h.flatten_take_ne_nil hk hrest
    have hpos := length_pos_of_ne_nil hne
    have hsplit : pre ++ rest = (pre ++ rest.take (readCount n 0 rest)) ++
        rest.drop (readCount n 0 rest) := by
      rw [append_assoc,take_append_drop]
    have hnext := ih hf' (hsplit ▸ h) (by rw [length_drop]; omega)
    rw [retval_of_ne_nil _ hne]
    simp only
    rw [if_neg (by omega),if_neg (by omega),if_neg (pos_iff_ne_zero.mp hk)]
    rwa [flatten_append] at hnext

end

lemma reads_outcome {lines : List Bytes} (h : ∃ k, ∀ fuel ≥ k, Presents api fuel m lines)
    (sizes : List ReadSize) : Reads api m sizes (outcome [] lines sizes) := by
  obtain ⟨k,hk⟩ := h
  intro lastIndex
  refine ⟨max k (lines.length+1),fun fuel hfuel => ?_⟩
  have hat : At ⟨0,lastIndex,m⟩ m [] := ⟨rfl,rfl,fun hne => absurd rfl hne⟩
  exact readAll_eq hat (hk fuel (by omega)) (by omega) sizes

lemma Reads.unique {o o' : Outcome} (h : Reads api m sizes o) (h' : Reads api m sizes o') :
    o = o' := by
  obtain ⟨k,hk⟩ := h 0
  obtain ⟨l,hl⟩ := h' 0
  have heq := hk (max k l) (le_max_left k l)
  rw [hl (max k l) (le_max_right k l)] at heq
  exact (some.inj heq).symm

end Reading

lemma outcome_of_served (h : Served rest sizes) (done : List Bytes) :
    outcome done rest sizes = .unfinished ∨
      outcome done rest sizes = .eof (done ++ rest).flatten := by
  induction sizes generalizing done rest with
  | nil => exact .inl rfl
  | cons n ns ih =>
    rw [outcome]
    cases rest with
    | nil =>
      right
      rw [if_neg (not_lt.mpr h),append_nil]
      rfl
    | cons line lines =>
      obtain ⟨hfit,hrest⟩ := h
      have hk : readCount n 0 (line :: lines) ≠ 0 := fun h0 => readCount_cons_eq_zero.mp h0 hfit
      rw [if_neg (by omega),if_neg hk]
      have hnext := ih hrest (done ++ (line :: lines).take (readCount n 0 (line :: lines)))
      rwa [append_assoc,take_append_drop] at hnext

lemma outcome_of_not_served (h : ¬ Served rest sizes) (done : List Bytes) :
    outcome done rest sizes = .error ∨ ∃ taken line post, rest = taken ++ line :: post ∧
      outcome done rest sizes = .eof (done ++ taken).flatten := by
  induction sizes generalizing done rest with
  | nil => exact absurd trivial h
  | cons n ns ih =>
    rw [outcome]
    by_cases hsmall : n.1 < 80
    · exact .inl (if_pos hsmall)
    rw [if_neg hsmall]
    cases rest with
    | nil => exact absurd (not_lt.mp hsmall) h
    | cons line lines =>
      by_cases hk : readCount n 0 (line :: lines) = 0
      · refine .inr ⟨[],line,lines,rfl,?_⟩
        rw [if_pos hk,append_nil]
      have hfit := not_not.mp (mt readCount_cons_eq_zero.mpr hk)
      rw [if_neg hk]
      obtain herr | ⟨taken,line',post,heq,hout⟩ := ih (fun hs => h ⟨hfit,hs⟩)
        (done ++ (line :: lines).take (readCount n 0 (line :: lines)))
      · exact .inl herr
      · refine .inr ⟨(line :: lines).take (readCount n 0 (line :: lines)) ++ taken,line',post,?_,?_⟩
        · rw [append_assoc,← heq,take_append_drop]
        · rw [hout,append_assoc]

section Listing

variable {V : Type} (name : V → Bytes) (value : V → Option Bytes)

structure Enumerates (vars : List V) : Prop where
  nodup : vars.Nodup
  mem_iff : ∀ v, v ∈ vars ↔ (value v).isSome

def lineOf (v : V) : Bytes := formatLine (name v) ((value v).getD [])

def Listing (text : Bytes) : Prop :=
  ∃ vars, Enumerates value vars ∧ text = (vars.map (lineOf name value)).flatten

/-- What a reader may see: a listing at the end of the file, and no error. -/
def Outcome.Lists : Outcome → Prop
  | .eof text => Listing name value text
  | .error => False
  | .unfinished => True

def Lists {M : Type} (api : EnvApi M) (m : M) (sizes : List ReadSize) : Prop :=
  ∃ o, Reads api m sizes o ∧ o.Lists name value

variable {name value} {vars : List V}

lemma Enumerates.perm {vars vars' : List V} (h : Enumerates value vars)
    (h' : Enumerates value vars') : vars.Perm vars' :=
  (perm_ext_iff_of_nodup h.nodup h'.nodup).mpr fun v => (h.mem_iff v).trans (h'.mem_iff v).symm

lemma Listing.length_eq {text : Bytes} (h : Listing name value text)
    (hvars : Enumerates value vars) :
    text.length = (vars.map (lineOf name value)).flatten.length := by
  obtain ⟨vars',hvars',rfl⟩ := h
  exact ((hvars'.perm hvars).map _).flatten.length_eq

lemma not_listing (hvars : Enumerates value vars) {pre post : List Bytes} {line : Bytes}
    (h : vars.map (lineOf name value) = pre ++ line :: post) :
    ¬ Listing name value pre.flatten := by
  intro hlist
  have hlen := hlist.length_eq hvars
  have hline : line ∈ vars.map (lineOf name value) :=
    h ▸ mem_append_right pre mem_cons_self
  obtain ⟨v,-,rfl⟩ := mem_map.mp hline
  have hv := length_formatLine (name v) ((value v).getD [])
  rw [h,flatten_append,flatten_cons,length_append,length_append,lineOf,hv] at hlen
  omega

lemma lists_iff {M : Type} {api : EnvApi M} {m : M} (hvars : Enumerates value vars)
    (h : ∃ k, ∀ fuel ≥ k, Presents api fuel m (vars.map (lineOf name value)))
    (sizes : List ReadSize) :
    Lists name value api m sizes ↔ Served (vars.map (lineOf name value)) sizes := by
  have hreads := reads_outcome h sizes
  constructor
  · rintro ⟨o,ho,hlists⟩
    by_contra hserved
    obtain rfl := ho.unique hreads
    obtain herr | ⟨taken,line,post,heq,hout⟩ := outcome_of_not_served hserved []
    · rw [herr] at hlists
      exact hlists
    · rw [hout] at hlists
      exact not_listing hvars heq hlists
  intro hserved
  refine ⟨_,hreads,?_⟩
  obtain hout | hout := outcome_of_served hserved []
  · rw [hout]
    trivial
  · rw [hout]
    exact ⟨vars,hvars,rfl⟩

lemma listing_nil_iff : Listing name value [] ↔ ∀ v, value v = none := by
  constructor
  · rintro ⟨vars,hvars,htext⟩ v
    by_contra hv
    have hmem := (hvars.mem_iff v).mpr (isSome_iff_ne_none.mpr hv)
    have hnil := flatten_eq_nil_iff.mp htext.symm _ (mem_map_of_mem hmem)
    have hlen := length_formatLine (name v) ((value v).getD [])
    rw [show formatLine (name v) ((value v).getD []) = [] from hnil] at hlen
    cases hlen
  · intro hnone
    refine ⟨[],⟨nodup_nil,fun v => ?_⟩,rfl⟩
    simp [hnone v]

end Listing

end DslG624t.Ticfg
