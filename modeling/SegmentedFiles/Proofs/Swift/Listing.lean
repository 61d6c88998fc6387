import SegmentedFiles.Proofs.Http.Query
import SegmentedFiles.Swift.Store

/-! # Entries and pages of a listing

A cluster tells of an object, or of all names that share a start, in the fields of a JSON object
(`ListedEntry.Writes`), and a list of such values is read as what the entries say
(`page?_of_writes`). A listing comes in pages. Each begins behind the last name of the one before it, and
if the names are in order, the entries behind that name are the ones that no page has had yet
(`firstAfter_marker?`). -/

namespace SegmentedFiles

/-- An entry of a listing, as a cluster tells it. -/
inductive ListedEntry where
  /-- All names that share a start, up to a delimiter. -/
  | subdir (name : String)
  | object (name : String) (bytes : Nat) (contentType modified hash : Option String)
  deriving DecidableEq, Repr

namespace ListedEntry

def name : ListedEntry → String
  | .subdir name => name
  | .object name _ _ _ _ => name

/-- What the entry says. What is not told of an object is left at nothing. -/
def info : ListedEntry → ObjectInfo
  | .subdir name => ObjectInfo.group name
  | .object name bytes contentType modified hash =>
    ⟨name, bytes, contentType.getD "", (Timestamp.ofListing? (modified.getD "")).getD Timestamp.epoch, hash, none,
      false⟩

theorem name_info (e : ListedEntry) : e.info.name = e.name := by
  cases e <;> rfl

/-- The field is there once, whatever others there are. -/
def HasField (fields : List (String × Json)) (name : String) (value : Json) : Prop :=
  fields.filter (fun field => field.1 == name) = [(name, value)]

/-- The field is not there, or there once. -/
def Column (fields : List (String × Json)) (name : String) : Option Json → Prop
  | some value => HasField fields name value
  | none => ∀ field ∈ fields, field.1 ≠ name

/-- The entry is told by this value, an object with its fields in any order and among others. -/
inductive Writes : ListedEntry → Json → Prop where
  | subdir {fields : List (String × Json)} {name : String} :
    HasField fields "subdir" (.string name) → Writes (.subdir name) (.object fields)
  | object {fields : List (String × Json)} {name : String} {bytes : Nat}
    {contentType modified hash : Option String} :
    Column fields "subdir" none → bytes ≤ Decimal.max64 → HasField fields "name" (.string name) →
    HasField fields "bytes" (.integer bytes) → Column fields "content_type" (contentType.map Json.string) →
    Column fields "last_modified" (modified.map Json.string) → Column fields "hash" (hash.map Json.string) →
    Writes (.object name bytes contentType modified hash) (.object fields)

variable {e : ListedEntry} {value : Json} {fields : List (String × Json)}

/-- Fields are found by their names. -/
theorem columns?_object (columns : List (String × Option Json))
    (h : ∀ column ∈ columns, Column fields column.1 column.2) :
    (Json.object fields).columns? (columns.map Prod.fst) = some (columns.map Prod.snd) := by
  rw [Json.columns?]
  induction columns with
  | nil => rfl
  | cons column columns ih =>
    obtain ⟨hcolumn, hcolumns⟩ := List.forall_mem_cons.1 h
    obtain ⟨name, value⟩ := column
    rw [List.map_cons, List.mapM_cons, ih hcolumns]
    cases value with
    | some value =>
      rw [show fields.filter (fun field => field.1 == name) = [(name, value)] from hcolumn]
      rfl
    | none =>
      have hnone : fields.filter (fun field => field.1 == name) = [] :=
        List.filter_eq_nil_iff.2 fun field hfield => by simpa using hcolumn field hfield
      rw [hnone]
      rfl

/-- A text that is not there is left at `fallback`. -/
theorem orElse?_string (fallback : String) (text : Option String) :
    Json.orElse? fallback Json.string? (text.map Json.string) = some (text.getD fallback) := by
  cases text <;> rfl

/-- What is told of an entry is read. -/
theorem entry?_of_writes (h : e.Writes value) : SwiftAnswer.entry? value = some e.info := by
  cases h with
  | @subdir fields name hname =>
    have hcolumns : (Json.object fields).columns? ["subdir"] = some [some (.string name)] :=
      columns?_object [("subdir", some (.string name))] (by simpa [Column] using hname)
    rw [SwiftAnswer.entry?, SwiftAnswer.group?, hcolumns]
    rfl
  | @object fields name bytes contentType modified hash hgroup hmax hname hbytes htype hmodified hhash =>
    have hsubdir : (Json.object fields).columns? ["subdir"] = some [none] :=
      columns?_object [("subdir", none)] (List.forall_mem_singleton.2 hgroup)
    have hcolumns : (Json.object fields).columns? ["name", "bytes", "content_type", "last_modified", "hash"]
        = some [some (.string name), some (.integer bytes), contentType.map Json.string,
          modified.map Json.string, hash.map Json.string] :=
      columns?_object [("name", some (.string name)), ("bytes", some (.integer bytes)),
        ("content_type", contentType.map Json.string), ("last_modified", modified.map Json.string),
        ("hash", hash.map Json.string)] (by simpa using ⟨hname, hbytes, htype, hmodified, hhash⟩)
    have hnat : (Json.integer bytes).nat64? = some bytes := by
      simp only [Json.nat64?, Json.integer?, Option.bind_eq_bind, Option.bind_some]
      rw [if_pos ⟨Int.natCast_nonneg _, Int.ofNat_le.2 hmax⟩]
      rfl
    have hetag : Json.orElse? none (Json.orNull? Json.string?) (hash.map Json.string) = some hash := by
      cases hash <;> rfl
    rw [SwiftAnswer.entry?, SwiftAnswer.group?, hsubdir, SwiftAnswer.object?, hcolumns]
    simp only [Option.bind_eq_bind, Option.bind_some, hnat, hetag, orElse?_string]
    rfl

/-- A list of entries is read one by one. -/
theorem page?_of_writes {page : List ListedEntry} {values : List Json}
    (h : List.Forall₂ Writes page values) :
    SwiftAnswer.page? (.array values) = some (page.map info) := by
  rw [SwiftAnswer.page?, Json.listOf?]
  induction h with
  | nil => rfl
  | cons hentry _ ih =>
    rw [List.mapM_cons, entry?_of_writes hentry, ih]
    rfl

end ListedEntry

/-! ## Pages -/

namespace SwiftStore

variable {entries : List ListedEntry} {i : Nat}

/-- The first entries behind a marker: as many as a page has, or all that there are. -/
def firstAfter (entries : List ListedEntry) (marker : Option String) : List ListedEntry :=
  (entries.filter fun e => marker.all fun m => decide (m < e.name)).take 10000

/-- The entries in the order of the pages, counted from 0. -/
def pageOf (entries : List ListedEntry) (i : Nat) : List ListedEntry :=
  (entries.drop (i * 10000)).take 10000

/-- The name behind which a page begins: the last name of the page before it. -/
def marker? (entries : List ListedEntry) : Nat → Option String
  | 0 => none
  | i + 1 => (pageOf entries i).getLast?.map ListedEntry.name

theorem length_pageOf : (pageOf entries i).length = min 10000 (entries.length - i * 10000) := by
  rw [pageOf, List.length_take, List.length_drop]

theorem drop_eq_pageOf_append (entries : List ListedEntry) (i : Nat) :
    entries.drop (i * 10000) = pageOf entries i ++ entries.drop ((i + 1) * 10000) := by
  rw [Nat.succ_mul, pageOf, ← List.drop_drop, List.take_append_drop]

/-- Behind the last name of some entries come the others. -/
theorem filter_after {before rest : List ListedEntry} {e : ListedEntry}
    (hsorted : (before ++ e :: rest).Pairwise fun a b => a.name < b.name) :
    (before ++ e :: rest).filter (fun a => decide (e.name < a.name)) = rest := by
  obtain ⟨-, hrest, hbefore⟩ := List.pairwise_append.1 hsorted
  obtain ⟨hbehind, -⟩ := List.pairwise_cons.1 hrest
  have hfront : before.filter (fun a => decide (e.name < a.name)) = [] := by
    refine List.filter_eq_nil_iff.2 fun a ha hlt => ?_
    have hlt' := hbefore a ha e List.mem_cons_self
    exact String.lt_irrefl _ (String.lt_trans (of_decide_eq_true hlt) hlt')
  have hback : rest.filter (fun a => decide (e.name < a.name)) = rest :=
    List.filter_eq_self.2 fun a ha => decide_eq_true (hbehind a ha)
  rw [List.filter_append, hfront, List.nil_append, List.filter_cons_of_neg (by simp), hback]

/-- If the names are in order, a page is what comes behind the page before it. -/
theorem firstAfter_marker? (hsorted : entries.Pairwise fun a b => a.name < b.name)
    (hi : i * 10000 ≤ entries.length) : firstAfter entries (marker? entries i) = pageOf entries i := by
  cases i with
  | zero =>
    have hall : entries.filter (fun _ => true) = entries := List.filter_eq_self.2 fun _ _ => rfl
    rw [pageOf, Nat.zero_mul, List.drop_zero]
    exact congrArg (List.take 10000) hall
  | succ i =>
    rw [Nat.succ_mul] at hi
    have hlength : (pageOf entries i).length = 10000 := by
      rw [length_pageOf]
      omega
    obtain ⟨init, e, hpage⟩ : ∃ init e, pageOf entries i = init ++ [e] := by
      refine ⟨_, _, (List.dropLast_append_getLast (l := pageOf entries i) ?_).symm⟩
      exact List.ne_nil_of_length_pos (hlength ▸ by decide)
    have hsplit : entries = (entries.take (i * 10000) ++ init) ++ e :: entries.drop ((i + 1) * 10000) := by
      rw [List.append_assoc, List.append_cons init, ← hpage, ← drop_eq_pageOf_append, List.take_append_drop]
    have hmarker : marker? entries (i + 1) = some e.name := by
      rw [marker?, hpage, List.getLast?_concat, Option.map_some]
    have hfilter := filter_after (hsplit ▸ hsorted)
    rw [← hsplit] at hfilter
    rw [firstAfter, hmarker, pageOf]
    exact congrArg (List.take 10000) hfilter

end SwiftStore

end SegmentedFiles
