import Mathlib.Data.List.Forall2
import ProcessStart.Json.Decode
import ProcessStart.Json.Field
import ProcessStart.Proofs.Json.Skipping

/-!
Records by their fields. A record is spelled by an object, in which its fields
stand in any order among others, or by an array of what they hold. A reader
that keeps what each member holds ends with all fields, whichever way the
record is spelled and laid out.
-/
namespace ProcessStart.Json

/-- A field: its name, the values it may have, and whether it may be missing. -/
structure Field where
  name : String
  Holds : Json → Prop
  Missing : Prop

def Field.required (name : String) (v : Json) : Field := ⟨name, (· = v), False⟩

/-- A field whose value may be absent: then it is null or missing. -/
def Field.optional (name : String) (v : Option Json) : Field := ⟨name, (· = v.getD .null), v = none⟩

/-- Members that give these fields, in any order, none of them twice; others may stand between
them. -/
structure Gives (fields : List Field) (ms : List (String × Json)) : Prop where
  once : ms.Pairwise fun m n => m.1 = n.1 → m.1 ∉ fields.map Field.name
  holds : ∀ m ∈ ms, ∀ f ∈ fields, f.name = m.1 → f.Holds m.2
  present : ∀ f ∈ fields, f.name ∈ ms.map Prod.fst ∨ f.Missing

/-- An object of the fields, or an array of their values. -/
inductive Spells (fields : List Field) : Json → Prop
  | object {ms : List (String × Json)} (h : Gives fields ms) : Spells fields (.object ms)
  | array {items : List Json} (h : List.Forall₂ Field.Holds fields items) :
    Spells fields (.array items)

/-- Members that are the fields in order, some of those left out that may be missing. -/
inductive InOrder : List Field → List (String × Json) → Prop
  | nil : InOrder [] []
  | given {f : Field} {v : Json} {fields : List Field} {ms : List (String × Json)}
    (hv : f.Holds v) (h : InOrder fields ms) : InOrder (f :: fields) ((f.name, v) :: ms)
  | missing {f : Field} {fields : List Field} {ms : List (String × Json)}
    (hf : f.Missing) (h : InOrder fields ms) : InOrder (f :: fields) ms

namespace InOrder

variable {fields : List Field} {ms : List (String × Json)}

theorem required {name : String} {v : Json} (h : InOrder fields ms) :
    InOrder (.required name v :: fields) ((name, v) :: ms) := .given rfl h

theorem optional {name : String} {o : Option Json} (h : InOrder fields ms) :
    InOrder (.optional name o :: fields) (optionalMember name o ++ ms) := by
  cases o with
  | none => exact .missing rfl h
  | some v => exact .given rfl h

/-- The names of the members are in the order of the fields. -/
theorem sublist (h : InOrder fields ms) :
    (ms.map Prod.fst).Sublist (fields.map Field.name) := by
  induction h with
  | nil => exact .slnil
  | given _ _ ih => exact ih.cons_cons _
  | missing _ _ ih => exact ih.cons _

theorem holds (h : InOrder fields ms) (hnames : (fields.map Field.name).Nodup) :
    ∀ m ∈ ms, ∀ f ∈ fields, f.name = m.1 → f.Holds m.2 := by
  induction h with
  | nil => exact fun _ h => nomatch h
  | given hv h ih =>
    obtain ⟨hf, hrest⟩ := List.nodup_cons.mp hnames
    intro m hm g hg hname
    cases hm with
    | head =>
      cases hg with
      | head => exact hv
      | tail _ hg =>
        have hmem := List.mem_map_of_mem (f := Field.name) hg
        rw [hname] at hmem
        exact absurd hmem hf
    | tail _ hm =>
      cases hg with
      | head =>
        rw [hname] at hf
        exact absurd (h.sublist.mem (List.mem_map_of_mem hm)) hf
      | tail _ hg => exact ih hrest m hm g hg hname
  | missing _ h ih =>
    obtain ⟨hf, hrest⟩ := List.nodup_cons.mp hnames
    intro m hm g hg hname
    cases hg with
    | head =>
      rw [hname] at hf
      exact absurd (h.sublist.mem (List.mem_map_of_mem hm)) hf
    | tail _ hg => exact ih hrest m hm g hg hname

theorem present (h : InOrder fields ms) :
    ∀ f ∈ fields, f.name ∈ ms.map Prod.fst ∨ f.Missing := by
  induction h with
  | nil => exact fun _ h => nomatch h
  | given _ _ ih =>
    refine List.forall_mem_cons.mpr ⟨.inl (by simp), fun g hg => ?_⟩
    exact (ih g hg).imp_left (List.mem_cons_of_mem _)
  | missing hf _ ih => exact List.forall_mem_cons.mpr ⟨.inr hf, ih⟩

/-- Members in order give the fields. -/
theorem gives (h : InOrder fields ms) (hnames : (fields.map Field.name).Nodup) :
    Gives fields ms := by
  refine ⟨?_, h.holds hnames, h.present⟩
  have hdistinct : ms.Pairwise fun m n => m.1 ≠ n.1 :=
    List.pairwise_map.mp (h.sublist.nodup hnames)
  exact hdistinct.imp fun hne he => absurd he hne

end InOrder

section

variable {α : Type} {scan : List Char → Except Fault (Scanned α)} {text : List Char} {a : α}

/-- This text is read as this value, behind any blanks. -/
def Reads (scan : List Char → Except Fault (Scanned α)) (text : List Char) (a : α) : Prop :=
  ∀ s rest, EndsNumber rest → skipBlank s = text ++ rest → scan s = .ok (a, rest)

theorem Reads.map {β : Type} (h : Reads scan text a) (f : α → β) :
    Reads (fun s => do let (v, s) ← scan s; .ok (f v, s)) text (f a) := by
  intro s rest hend hs
  simp only [h s rest hend hs, bind, Except.bind]

theorem reads_text (l : Layout) (t : String) : Reads scanTextField (l.write (.text t)) t := by
  intro s rest _ hs
  have htext := scanText_write t.toList rest
  rw [String.ofList_toList] at htext
  rw [l.write_text, writeText, List.cons_append, List.cons_append, List.append_assoc] at hs
  rw [scanTextField, hs]
  exact htext

theorem reads_bool (l : Layout) (b : Bool) : Reads scanBoolField (l.write (.bool b)) b := by
  intro s rest _ hs
  cases b with
  | true => rw [l.write_true] at hs; rw [scanBoolField, hs]; rfl
  | false => rw [l.write_false] at hs; rw [scanBoolField, hs]; rfl

/-- A value that may be absent, if no value begins like a null. -/
theorem reads_optional (l : Layout) {value : α → Json}
    (hvalue : ∀ a, Reads scan (l.write (value a)) a)
    (hfirst : ∀ a, ∃ c t, l.write (value a) = c :: t ∧ c ≠ 'n') (o : Option α) :
    Reads (scanOptional scan) (l.write ((o.map value).getD .null)) o := by
  intro s rest hend hs
  cases o with
  | none =>
    rw [Option.map_none, Option.getD_none, l.write_null] at hs
    rw [scanOptional, hs]
    rfl
  | some a =>
    rw [Option.map_some, Option.getD_some] at hs
    obtain ⟨c, t, hc, hne⟩ := hfirst a
    have hscan := hvalue a (skipBlank s) rest hend (by rw [skipBlank_skipBlank, hs])
    rw [scanOptional]
    split
    · rename_i hnull
      rw [hs, hc, List.cons_append] at hnull
      exact absurd (List.cons.inj hnull).1 hne
    · rw [hscan]
      rfl

theorem reads_optionalText (l : Layout) (o : Option String) :
    Reads (scanOptional scanTextField) (l.write ((o.map .text).getD .null)) o :=
  reads_optional l (reads_text l) (fun t => ⟨_, _, l.write_text t, by decide⟩) o

theorem reads_optionalBool (l : Layout) (o : Option Bool) :
    Reads (scanOptional scanBoolField) (l.write ((o.map .bool).getD .null)) o := by
  refine reads_optional l (reads_bool l) (fun b => ?_) o
  cases b with
  | true => exact ⟨_, _, l.write_true, by decide⟩
  | false => exact ⟨_, _, l.write_false, by decide⟩

theorem scanRecord_object {s t : List Char} (h : skipBlank s = '{' :: t) (record : String)
    (fromObject fromArray : List Char → Except Fault (Scanned α)) :
    scanRecord record fromObject fromArray s = fromObject t := by rw [scanRecord, h]; rfl

theorem scanRecord_array {s t : List Char} (h : skipBlank s = '[' :: t) (record : String)
    (fromObject fromArray : List Char → Except Fault (Scanned α)) :
    scanRecord record fromObject fromArray s = fromArray t := by rw [scanRecord, h]; rfl

/-- Behind blanks the value stands where an item is due, and is read there. -/
theorem reads_item {l : Layout} {v : Json} (hv : v.Exact) (h : Reads scan (l.write v) a)
    {rest : List Char} (hend : EndsNumber rest) :
    ∃ c t, skipBlank (l.item v ++ rest) = c :: t ∧ c ≠ ']' ∧ scan (c :: t) = .ok (a, rest) := by
  obtain ⟨c, t, ht, hblank, hc⟩ := l.begins_write hv
  have hskip : skipBlank (c :: (t ++ rest)) = c :: (t ++ rest) := skipBlank_cons hblank _
  refine ⟨c, t ++ rest, ?_, hc, h _ _ hend ?_⟩
  · rw [Layout.item, List.append_assoc, skipBlank_append l.blanks_gap, ht, List.cons_append, hskip]
  · rw [hskip, ht, List.cons_append]

theorem scanFieldAt_first {l : Layout} {v : Json} (hv : v.Exact) (h : Reads scan (l.write v) a)
    (record : String) {rest : List Char} (hend : EndsNumber rest) :
    scanFieldAt record 0 scan (l.item v ++ rest) = .ok (a, rest) := by
  obtain ⟨c, t, hs, hc, hscan⟩ := reads_item hv h hend
  have hitem : nextItem (0 == 0) (l.item v ++ rest) = .ok (.item (c :: t)) := nextItem_first hs hc
  rw [scanFieldAt, hitem]
  exact hscan

theorem scanFieldAt_next {l : Layout} {v : Json} (hv : v.Exact) (h : Reads scan (l.write v) a)
    (record : String) (index : Nat) {rest : List Char} (hend : EndsNumber rest) :
    scanFieldAt record (index + 1) scan (',' :: (l.item v ++ rest)) = .ok (a, rest) := by
  obtain ⟨c, t, hs, hc, hscan⟩ := reads_item hv h hend
  have hitem : nextItem (index + 1 == 0) (',' :: (l.item v ++ rest)) = .ok (.item (c :: t)) :=
    nextItem_comma hs hc
  rw [scanFieldAt, hitem]
  exact hscan

theorem endsNumber_comma (s : List Char) : EndsNumber (',' :: s) :=
  endsNumber_cons.mpr ⟨rfl, by decide, rfl⟩

theorem endsNumber_closing (l : Layout) (rest : List Char) : EndsNumber (l.gap ++ ']' :: rest) :=
  (closes_append .array l.blanks_gap rest).ends

theorem scanArrayEnd_closing {gap : List Char} (hgap : Blanks gap) (rest : List Char) :
    scanArrayEnd (gap ++ ']' :: rest) = .ok rest := by
  rw [scanArrayEnd, skipBlank_append hgap, skipBlank_cons rfl]
  rfl

/-- What is known of a field when members of these names were read. -/
def known (names : List String) (name : String) (a : α) : Option α :=
  if name ∈ names then some a else none

theorem known_of_not_mem {names : List String} {name : String} (h : name ∉ names) (a : α) :
    known names name a = none := if_neg h

@[simp] theorem known_append_self (names : List String) (name : String) (a : α) :
    known (names ++ [name]) name a = some a := by simp [known]

theorem known_append_other {name other : String} (h : other ≠ name) (names : List String) (a : α) :
    known (names ++ [other]) name a = known names name a := by simp [known, h.symm]

theorem require_known {names : List String} {name : String} (h : name ∈ names) (a : α) :
    require name (known names name a) = .ok a := by
  rw [known, if_pos h]
  rfl

/-- A field that was not read may only be one that is absent. -/
theorem join_known {names : List String} {name : String} {o : Option α}
    (h : name ∈ names ∨ o = none) : (known names name o).join = o := by
  rw [known]
  split
  · rfl
  · rename_i hname
    rw [h.resolve_left hname]
    rfl

/-- The first time, the value behind the colon is read. -/
theorem reads_fieldOnce (h : Reads scan text a) {names : List String} {name : String}
    (hname : name ∉ names) (b : α) :
    Reads (fun s => scanFieldOnce name (known names name b) scan (':' :: s)) text a := by
  intro s rest hend hs
  have hcolon : scanColon (':' :: s) = .ok s := rfl
  simp only [known_of_not_mem hname, scanFieldOnce, hcolon, bind, Except.bind]
  exact h s rest hend hs

end

section

variable {δ : Type} {member : δ → String → List Char → Except Fault (Scanned δ)}
  {fields : List Field} {seen : List String → δ}

/-- A reader of members that keeps what the fields hold; `seen` is what is known when members of
these names were read. -/
structure Keeps (fields : List Field) (member : δ → String → List Char → Except Fault (Scanned δ))
    (seen : List String → δ) : Prop where
  field : ∀ f ∈ fields, ∀ (l : Layout) v, v.Exact → f.Holds v → ∀ names, f.name ∉ names →
    Reads (fun s => member (seen names) f.name (':' :: s)) (l.write v) (seen (names ++ [f.name]))
  other : ∀ key, key ∉ fields.map Field.name → ∀ names s rest, skipValue s = .ok rest →
    member (seen names) key (':' :: s) = .ok (seen (names ++ [key]), rest)

theorem stepsMember_of_reads {l : Layout} {m : String × Json} {state next : δ}
    (hv : m.2.Exact) (h : Reads (fun s => member state m.1 (':' :: s)) (l.write m.2) next) :
    StepsMember member (l.member m) state next := by
  intro rest hend
  have htext := scanText_write m.1.toList (':' :: (l.space ++ (l.write m.2 ++ rest)))
  rw [String.ofList_toList] at htext
  refine ⟨m.1, _, _, ?_, htext, h _ rest hend ?_⟩
  · rw [Layout.member, List.append_assoc, skipBlank_append l.blanks_gap]
    simp [writeText, skipBlank_cons (c := '"') rfl]
  · rw [skipBlank_append l.blanks_space, (l.begins_write hv).skipBlank_append]

/-- Reading one more member makes its field known, and changes nothing else. -/
theorem Keeps.stepsMember (h : Keeps fields member seen) {done left : List (String × Json)}
    {m : String × Json} (hms : Gives fields (done ++ m :: left)) (hv : m.2.Exact) (l : Layout) :
    StepsMember member (l.member m) (seen (done.map Prod.fst))
      (seen ((done ++ [m]).map Prod.fst)) := by
  rw [List.map_append, List.map_singleton]
  apply stepsMember_of_reads hv
  by_cases hname : m.1 ∈ fields.map Field.name
  · obtain ⟨f, hf, hfm⟩ := List.mem_map.mp hname
    have hnew : m.1 ∉ done.map Prod.fst := by
      intro hdone
      obtain ⟨n, hn, hnm⟩ := List.mem_map.mp hdone
      have honce := (List.pairwise_append.mp hms.once).2.2 n hn m (by simp)
      exact honce hnm (hnm ▸ hname)
    rw [← hfm] at hnew ⊢
    exact h.field f hf l m.2 hv (hms.holds m (by simp) f hf hfm) _ hnew
  · intro s rest hend hs
    exact h.other m.1 hname _ s rest ((skips_write l hv).skipValue hend hs)

/-- The members of a record are read behind its opening brace. -/
theorem Keeps.scanMembers (h : Keeps fields member seen) {ms : List (String × Json)}
    (hms : Gives fields ms) (hv : (Json.object ms).Exact) (l : Layout) {s rest : List Char}
    (hs : skipBlank s = l.write (.object ms) ++ rest) : ∃ t, skipBlank s = '{' :: t ∧
      scanMembers member true (t.length + 1) (seen []) t = .ok (seen (ms.map Prod.fst), rest) := by
  have hsteps : StepsMembers member l.inner.member (fun done => seen (done.map Prod.fst)) ms := by
    rintro done m left rfl
    exact h.stepsMember hms ((exact_object _).mp hv m (by simp)) l.inner
  have hclose := closes_append .object (l.blanks_closing ms) rest
  have hlen := length_le_commaSeparated (ms.map l.inner.member)
  rw [List.length_map] at hlen
  refine ⟨commaSeparated (ms.map l.inner.member) ++ (l.closing ms ++ '}' :: rest), ?_, ?_⟩
  · rw [hs, l.write_object]
    simp
  · refine scanMembers_written hsteps hclose.closing hclose.ends ?_
    simp only [List.length_append, List.length_cons]
    omega

end

end ProcessStart.Json
