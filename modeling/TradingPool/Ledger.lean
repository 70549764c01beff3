import TradingPool.Bytes

/-! Accounts stored on a ledger, at most one at each address, in the order in which they were first
stored. The length of an account is a 64-bit number. -/
namespace TradingPool

structure Entry where
  address : Key
  owner : Key
  data : Bytes
  sized : data.length < UInt64.size
  deriving DecidableEq, Repr

structure Ledger where
  entries : List Entry
  distinct : (entries.map Entry.address).Nodup
  deriving DecidableEq, Repr

namespace Ledger

def empty : Ledger := ⟨[], List.nodup_nil⟩

def data? (ledger : Ledger) (address : Key) : Option Bytes :=
  (ledger.entries.find? (·.address = address)).map Entry.data

def owned (ledger : Ledger) (program : Key) : List (Key × Bytes) :=
  (ledger.entries.filter (·.owner = program)).map fun entry => (entry.address, entry.data)

theorem sizedData {ledger : Ledger} {address : Key} {data : Bytes}
    (h : ledger.data? address = some data) : data.length < UInt64.size := by
  obtain ⟨entry, _, same⟩ := Option.map_eq_some_iff.1 h
  exact same ▸ entry.sized

def replace (entry other : Entry) : Entry := if other.address = entry.address then entry else other

theorem addressReplace (entry other : Entry) : (replace entry other).address = other.address := by
  unfold replace
  split
  · next h => exact h.symm
  · rfl

/-- An account that is stored again keeps its place. -/
def store (ledger : Ledger) (entry : Entry) : Ledger :=
  if h : entry.address ∈ ledger.entries.map Entry.address then
    ⟨ledger.entries.map (replace entry), by
      rw [List.map_map]
      have same : Entry.address ∘ replace entry = Entry.address :=
        funext fun other => addressReplace entry other
      rw [same]
      exact ledger.distinct⟩
  else
    ⟨ledger.entries ++ [entry], by
      rw [List.map_append]
      refine List.nodup_append.2 ⟨ledger.distinct, by simp, ?_⟩
      intro a ha b hb same
      simp only [List.map_cons, List.map_nil, List.mem_singleton] at hb
      subst hb same
      exact h ha⟩

def remove (ledger : Ledger) (address : Key) : Ledger :=
  ⟨ledger.entries.filter (·.address ≠ address),
    ledger.distinct.sublist (List.filter_sublist.map Entry.address)⟩

theorem dataStore (ledger : Ledger) (entry : Entry) (address : Key) :
    (ledger.store entry).data? address =
      if address = entry.address then some entry.data else ledger.data? address := by
  unfold store
  split
  · next present =>
    have same : (fun other : Entry => decide (other.address = address)) ∘ replace entry =
        fun other => decide (other.address = address) :=
      funext fun other => by simp [addressReplace]
    simp only [data?, List.find?_map, same, Option.map_map]
    cases found : ledger.entries.find? (fun other => decide (other.address = address)) with
    | none =>
      have absent : address ≠ entry.address := by
        intro same
        subst same
        obtain ⟨other, member, h⟩ := List.mem_map.1 present
        simpa [h] using List.find?_eq_none.1 found other member
      simp [absent]
    | some other =>
      have h : other.address = address := by simpa using List.find?_some found
      by_cases here : address = entry.address <;> simp [replace, h, here]
  · next absent =>
    simp only [data?, List.find?_append]
    by_cases here : address = entry.address
    · have nothing :
          ledger.entries.find? (fun other => decide (other.address = entry.address)) = none :=
        List.find?_eq_none.2 fun other member h =>
          absent (List.mem_map.2 ⟨other, member, of_decide_eq_true h⟩)
      simp [here, nothing]
    · simp [here, Ne.symm here]

theorem dataRemove (ledger : Ledger) (removed address : Key) :
    (ledger.remove removed).data? address =
      if address = removed then none else ledger.data? address := by
  simp only [data?, remove, List.find?_filter]
  by_cases here : address = removed
  · simp [here]
  · rw [if_neg here]
    congr 2
    funext other
    by_cases h : other.address = address <;> simp [h, here]

def ofEntries (entries : List Entry) : Ledger := entries.foldl store empty

end Ledger

end TradingPool
