import Mathlib.Order.Lex
import Mathlib.Data.Prod.Lex
import Mathlib.Data.List.Lex
import Mathlib.Data.String.Basic
import Mathlib.Order.Nat

/-!
# Documents

A document is a dictionary from field names to values. The values here are the ones a
record of strings, lists of strings and timestamps is encoded with. Values of different
kinds are ordered by their kind, values of one kind by their content. Reading a field as
a value of one kind fails when the field is missing or holds a value of another kind.
-/

/-- A point in time, in ticks. -/
abbrev Timestamp : Type := ℕ

/-- A value of a field. -/
inductive Value where
  | timestamp (time : Timestamp)
  | string (text : String)
  | strings (texts : List String)
  deriving DecidableEq

/-- A dictionary from field names to values. -/
abbrev Document : Type := List (String × Value)

/-- Why a field could not be read. -/
inductive DecodingError where
  | keyNotFound (field : String)
  | typeMismatch (field : String)
  deriving DecidableEq

namespace Value

/-- The kind of a value, then its content. -/
def content : Value → ℕ ×ₗ (Timestamp ×ₗ (String ×ₗ List String))
  | .timestamp t => toLex (0, toLex (t, toLex ("", [])))
  | .string s => toLex (1, toLex (0, toLex (s, [])))
  | .strings l => toLex (2, toLex (0, toLex ("", l)))

theorem content_injective :
  Function.Injective content
  := by
  rintro (t | s | l) (t' | s' | l') h <;> simp [content] at h ⊢ <;> exact h

instance : LinearOrder Value :=
  LinearOrder.lift' content content_injective

theorem timestamp_lt_timestamp {t t' : Timestamp} :
  timestamp t < timestamp t' ↔ t < t'
  := by
  change content _ < content _ ↔ _
  simp [content, Prod.Lex.toLex_lt_toLex]

theorem string_lt_string {s s' : String} :
  string s < string s' ↔ s < s'
  := by
  change content _ < content _ ↔ _
  simp [content, Prod.Lex.toLex_lt_toLex]

end Value

namespace Document

/-- The value of a field. -/
def field (d : Document) (name : String) : Option Value := d.lookup name

/-- Reading a field as a string. -/
def string (d : Document) (name : String) : Except DecodingError String :=
  match d.field name with
  | some (.string s) => .ok s
  | some _ => .error (.typeMismatch name)
  | none => .error (.keyNotFound name)

/-- Reading a field as a list of strings. -/
def strings (d : Document) (name : String) : Except DecodingError (List String) :=
  match d.field name with
  | some (.strings l) => .ok l
  | some _ => .error (.typeMismatch name)
  | none => .error (.keyNotFound name)

/-- Reading a field as a timestamp. -/
def timestamp (d : Document) (name : String) : Except DecodingError Timestamp :=
  match d.field name with
  | some (.timestamp t) => .ok t
  | some _ => .error (.typeMismatch name)
  | none => .error (.keyNotFound name)

theorem string_eq_ok {d : Document} {name s : String} :
  d.string name = .ok s ↔ d.field name = some (.string s)
  := by
  unfold string
  split <;> simp_all

theorem strings_eq_ok {d : Document} {name : String} {l : List String} :
  d.strings name = .ok l ↔ d.field name = some (.strings l)
  := by
  unfold strings
  split <;> simp_all

theorem timestamp_eq_ok {d : Document} {name : String} {t : Timestamp} :
  d.timestamp name = .ok t ↔ d.field name = some (.timestamp t)
  := by
  unfold timestamp
  split <;> simp_all

/-- A sequence of readings succeeds when each of them does. -/
theorem bind_eq_ok {α β : Type} {x : Except DecodingError α} {f : α → Except DecodingError β}
    {b : β} :
  x >>= f = .ok b ↔ ∃ a, x = .ok a ∧ f a = .ok b
  := by
  constructor
  · intro h
    cases x with
    | error err => cases h
    | ok a => exact ⟨a, rfl, h⟩
  · rintro ⟨a, rfl, h⟩
    apply h

theorem toOption_eq_some {α : Type} {x : Except DecodingError α} {a : α} :
  x.toOption = some a ↔ x = .ok a
  := by
  cases x <;> simp [Except.toOption]

/-! ### Lists of documents -/

section Decode

variable {α : Type} (decode : Document → Except DecodingError α)

/-- The loop over the documents of a result: each is decoded and appended, those that do
not decode are skipped. -/
def appendAll (append : α → List α → List α) (documents : List (String × Document))
    (l : List α) : List α :=
  documents.foldl
    (fun l document =>
      match decode document.2 with
      | .ok decodedTask => append decodedTask l
      | .error _ => l)
    l

/-- The records of the documents that decode, in their order. -/
def decodeAll (documents : List (String × Document)) : List α :=
  documents.filterMap fun document => (decode document.2).toOption

variable {decode} {documents : List (String × Document)}

theorem appendAll_eq {append : α → List α → List α} (happend : ∀ a l, append a l = l ++ [a])
    (l : List α) :
  appendAll decode append documents l = l ++ decodeAll decode documents
  := by
  induction documents generalizing l with
  | nil => simp [appendAll, decodeAll]
  | cons d ds ih =>
      rw [appendAll, List.foldl_cons, ← appendAll, ih, decodeAll, decodeAll,
        List.filterMap_cons]
      cases decode d.2 with
      | error err => rfl
      | ok a => simp [happend, Except.toOption]

theorem mem_decodeAll {a : α} :
  a ∈ decodeAll decode documents ↔ ∃ i d, (i, d) ∈ documents ∧ decode d = .ok a
  := by
  simp only [decodeAll, List.mem_filterMap, Prod.exists]
  constructor
  · rintro ⟨i, d, hm, ha⟩
    use i, d, hm
    cases h : decode d with
    | error err => simp [h, Except.toOption] at ha
    | ok a' => simpa [h, Except.toOption] using ha
  · rintro ⟨i, d, hm, ha⟩
    exact ⟨i, d, hm, by simp [ha, Except.toOption]⟩

/-- When every document decodes to a record with its id for key, the keys of the records are
the ids of the documents. -/
theorem map_decodeAll {key : α → String}
    (h : ∀ a ∈ documents, ∃ r, decode a.2 = .ok r ∧ key r = a.1) :
  (decodeAll decode documents).map key = documents.map Prod.fst
  := by
  induction documents with
  | nil => rfl
  | cons a documents ih =>
      obtain ⟨r, hr, hkey⟩ := h a List.mem_cons_self
      have := ih fun b hb => h b (List.mem_cons_of_mem _ hb)
      simp only [decodeAll, List.filterMap_cons, hr, Except.toOption, List.map_cons, hkey] at this ⊢
      rw [this]

end Decode

end Document
