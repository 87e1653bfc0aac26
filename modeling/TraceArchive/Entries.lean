/-!
# Entries in order of first insertion

A finite map kept as the list of its entries.  Writing to a key that is present keeps the place of
the entry and takes the new value; writing to a new key adds an entry at the end.

* `get?_put_self`, `get?_put_of_ne`: what a look-up sees after a write.
* `keys_put`: a write adds at most its own key, at the end.
-/

set_option autoImplicit false

namespace TraceArchive

universe u v

/-- A finite map as the list of its entries in order of first insertion. -/
abbrev Entries (κ : Type u) (α : Type v) := List (κ × α)

namespace Entries

variable {κ : Type u} {α : Type v} [DecidableEq κ]

/-- The value of a key. -/
def get? (key : κ) : Entries κ α → Option α
  | [] => none
  | (k, value) :: rest => if k = key then some value else get? key rest

/-- The entries with the value of a key replaced, or with a new entry at the end. -/
def put (key : κ) (value : α) : Entries κ α → Entries κ α
  | [] => [(key, value)]
  | (k, old) :: rest => if k = key then (k, value) :: rest else (k, old) :: put key value rest

/-- The entries without a key. -/
def erase (key : κ) (entries : Entries κ α) : Entries κ α :=
  entries.filter fun entry => entry.1 ≠ key

/-- The keys in order of first insertion. -/
def keys (entries : Entries κ α) : List κ :=
  entries.map Prod.fst

/-- The entries that result from writing pairs one after the other. -/
def ofList (pairs : List (κ × α)) : Entries κ α :=
  pairs.foldl (fun entries pair => put pair.1 pair.2 entries) []

@[simp] theorem get?_nil (key : κ) : get? key ([] : Entries κ α) = none := rfl

theorem get?_put_self
    (key : κ)
    (value : α)
    (entries : Entries κ α) :
    get? key (put key value entries) = some value := by
  induction entries with
  | nil => simp [put, get?]
  | cons entry rest ih =>
    by_cases h : entry.1 = key <;> simp [put, get?, h, ih]

theorem get?_put_of_ne
    {key other : κ}
    (h : other ≠ key)
    (value : α)
    (entries : Entries κ α) :
    get? other (put key value entries) = get? other entries := by
  induction entries with
  | nil => simp [put, get?, h.symm]
  | cons entry rest ih =>
    by_cases hk : entry.1 = key
    · simp [put, get?, hk, h.symm]
    · simp [put, get?, hk, ih]

/-- A write adds at most its own key, at the end. -/
theorem keys_put
    (key : κ)
    (value : α)
    (entries : Entries κ α) :
    keys (put key value entries) =
      if key ∈ keys entries then keys entries else keys entries ++ [key] := by
  induction entries with
  | nil => simp [put, keys]
  | cons entry rest ih =>
    by_cases h : entry.1 = key
    · simp [put, keys, h]
    · have hne : key ≠ entry.1 := Ne.symm h
      by_cases hm : key ∈ keys rest
      · simp_all [put, keys]
      · simp_all [put, keys]

end Entries
end TraceArchive
