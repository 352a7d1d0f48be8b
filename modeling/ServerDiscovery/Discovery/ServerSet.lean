import ServerDiscovery.Message.ServerInfo
import ServerDiscovery.Net.AddressText

/-! # Sets of servers

The records that were found, one for each address.  A record replaces an older one of the same
address.  The set is a list in the order in which its addresses were first seen; nothing but
`listing` depends on that order.
-/

namespace ServerDiscovery

/-- Records of servers, no two of the same address. -/
structure ServerSet where
  records : List ServerInfo
  distinct : (records.map (·.address)).Nodup
deriving DecidableEq, Repr

namespace ServerSet

/-- No records. -/
def empty : ServerSet := ⟨[], List.nodup_nil⟩

instance : Inhabited ServerSet := ⟨empty⟩

/-- The record of `address`. -/
def get? (s : ServerSet) (address : SocketAddress) : Option ServerInfo :=
  s.records.find? (·.address = address)

/-- Whether there is a record of `address`. -/
def contains (s : ServerSet) (address : SocketAddress) : Bool :=
  s.records.any (·.address = address)

/-- The number of records. -/
def size (s : ServerSet) : Nat := s.records.length

/-- Whether there are no records. -/
def isEmpty (s : ServerSet) : Bool := s.records.isEmpty

/-- Put `info` in the place of the record of its address, or at the end if there is none. -/
def put (info : ServerInfo) : List ServerInfo → List ServerInfo
  | [] => [info]
  | r :: rest => if r.address = info.address then info :: rest else r :: put info rest

theorem mem_map_address_put {info : ServerInfo} {l : List ServerInfo} {a : SocketAddress} :
    a ∈ (put info l).map (·.address) ↔ a = info.address ∨ a ∈ l.map (·.address) := by
  induction l with
  | nil => simp [put]
  | cons r rest ih =>
    by_cases h : r.address = info.address
    · simp [put, h]
    · simp only [put, if_neg h, List.map_cons, List.mem_cons, ih]
      constructor <;> rintro (h | h | h) <;> simp [h]

theorem nodup_put {info : ServerInfo} {l : List ServerInfo} (h : (l.map (·.address)).Nodup) :
    ((put info l).map (·.address)).Nodup := by
  induction l with
  | nil => simp [put]
  | cons r rest ih =>
    by_cases hr : r.address = info.address
    · simpa [put, hr] using h
    · simp only [put, if_neg hr, List.map_cons, List.nodup_cons] at h ⊢
      refine ⟨fun hm => ?_, ih h.2⟩
      rcases mem_map_address_put.1 hm with hm | hm
      · exact hr hm
      · exact h.1 hm

/-- The set with `info`, and whether its address is new. -/
def insert (s : ServerSet) (info : ServerInfo) : Bool × ServerSet :=
  (!s.contains info.address, ⟨put info s.records, nodup_put s.distinct⟩)

/-- The records in the order of the texts of their addresses. -/
def listing (s : ServerSet) : List ServerInfo :=
  s.records.mergeSort fun a b => a.address.text ≤ b.address.text

end ServerSet

end ServerDiscovery
