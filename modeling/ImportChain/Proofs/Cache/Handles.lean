/-
ImportChain.Proofs.Cache.Handles — who holds which dependency.

A dependency lives as long as somebody holds a handle to it. It is stored
at an address at which no other one lives; the address of a dead one may
be taken again at any time. Its serial number is never given again.

`Sound` is what all changes keep to (`Sound.step`): a serial number names
one dependency, and so does an address among those that are held.
-/
import ImportChain.Module

namespace ImportChain

/-- The handles to dependencies, one item for each of them. -/
structure Handles where
  held : List Dependency := []
  /-- The serial number of the next dependency. -/
  next : Nat := 0
  deriving Repr, DecidableEq

namespace Handles

/-- Whether the dependency with a serial number is alive. -/
def alive (h : Handles) (serial : Nat) : Bool := h.held.any (·.serial = serial)

/-- The handles with the first one to a new dependency. -/
def allocate (h : Handles) (address : Nat) (request : String) : Handles :=
  ⟨⟨address, h.next, request⟩ :: h.held, h.next + 1⟩

/-- The handles with one more to a dependency. -/
def clone (h : Handles) (d : Dependency) : Handles := { h with held := d :: h.held }

/-- The handles with one less to a dependency. -/
def drop (h : Handles) (d : Dependency) : Handles := { h with held := h.held.erase d }

/-- What whoever holds handles may do. -/
inductive Step (h : Handles) : Handles → Prop where
  /-- No dependency lives at the address. -/
  | allocate (address : Nat) (request : String) (free : ∀ d ∈ h.held, d.address ≠ address) :
    Step h (h.allocate address request)
  | clone {d : Dependency} (hd : d ∈ h.held) : Step h (h.clone d)
  | drop {d : Dependency} (hd : d ∈ h.held) : Step h (h.drop d)

/-- What the handles to dependencies keep to. -/
structure Sound (h : Handles) : Prop where
  numbered : ∀ d ∈ h.held, d.serial < h.next
  eq_of_serial : ∀ d ∈ h.held, ∀ d' ∈ h.held, d.serial = d'.serial → d = d'
  eq_of_address : ∀ d ∈ h.held, ∀ d' ∈ h.held, d.address = d'.address → d = d'

variable {h h' : Handles}

theorem alive_iff {serial : Nat} : h.alive serial = true ↔ ∃ d ∈ h.held, d.serial = serial := by
  simp [alive]

theorem alive_of_mem {d : Dependency} (hd : d ∈ h.held) : h.alive d.serial = true :=
  alive_iff.2 ⟨d, hd, rfl⟩

theorem sound_empty : Sound {} := by
  constructor <;> simp

/-- Fewer handles, or more to what is held, are as sound. -/
theorem Sound.of_subset (hs : h.Sound) (hsub : ∀ d ∈ h'.held, d ∈ h.held)
    (hnext : h'.next = h.next) : h'.Sound where
  numbered d hd := hnext ▸ hs.numbered d (hsub d hd)
  eq_of_serial d hd d' hd' := hs.eq_of_serial d (hsub d hd) d' (hsub d' hd')
  eq_of_address d hd d' hd' := hs.eq_of_address d (hsub d hd) d' (hsub d' hd')

theorem Sound.allocate (hs : h.Sound) {address : Nat} (request : String)
    (free : ∀ d ∈ h.held, d.address ≠ address) : (h.allocate address request).Sound where
  numbered d hd := by
    rcases List.mem_cons.1 hd with rfl | hd
    · exact Nat.lt_succ_self _
    · exact Nat.lt_succ_of_lt (hs.numbered d hd)
  eq_of_serial d hd d' hd' he := by
    rcases List.mem_cons.1 hd with rfl | hd <;> rcases List.mem_cons.1 hd' with rfl | hd'
    · rfl
    · exact absurd he.symm (Nat.ne_of_lt (hs.numbered d' hd'))
    · exact absurd he (Nat.ne_of_lt (hs.numbered d hd))
    · exact hs.eq_of_serial d hd d' hd' he
  eq_of_address d hd d' hd' he := by
    rcases List.mem_cons.1 hd with rfl | hd <;> rcases List.mem_cons.1 hd' with rfl | hd'
    · rfl
    · exact absurd he.symm (free d' hd')
    · exact absurd he (free d hd)
    · exact hs.eq_of_address d hd d' hd' he

theorem Sound.step (hs : h.Sound) (hstep : h.Step h') : h'.Sound := by
  cases hstep with
  | allocate address request free => exact hs.allocate request free
  | clone hd =>
    refine hs.of_subset (fun d' hd' => ?_) rfl
    rcases List.mem_cons.1 hd' with rfl | hd'
    · exact hd
    · exact hd'
  | drop hd => exact hs.of_subset (fun d' hd' => List.mem_of_mem_erase hd') rfl

/-- A step gives new dependencies new serial numbers: whatever is held after
it was held before or could not have been. -/
theorem mem_or_le_of_step (hstep : h.Step h') {d : Dependency} (hd : d ∈ h'.held) :
    d ∈ h.held ∨ h.next ≤ d.serial := by
  cases hstep with
  | allocate address request free =>
    rcases List.mem_cons.1 hd with rfl | hd
    · exact Or.inr (Nat.le_refl _)
    · exact Or.inl hd
  | clone hc =>
    rcases List.mem_cons.1 hd with rfl | hd
    · exact Or.inl hc
    · exact Or.inl hd
  | drop _ => exact Or.inl (List.mem_of_mem_erase hd)

theorem next_le_of_step (hstep : h.Step h') : h.next ≤ h'.next := by
  cases hstep with
  | allocate address request free => exact Nat.le_succ _
  | clone _ => exact Nat.le_refl _
  | drop _ => exact Nat.le_refl _

end Handles

end ImportChain
