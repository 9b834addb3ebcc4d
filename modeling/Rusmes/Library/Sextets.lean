import Mathlib.Data.List.Infix
import Mathlib.Logic.Function.Basic

/-!
Three octets as four groups of six bits and back, in the arithmetic of octets:
what is shifted beyond the eighth bit is lost. And the table that a list of
entries writes, whose keys are looked up again.
-/

namespace Sextets

def SameBit (first second : UInt8) (place : Nat) : Prop :=
  first.toBitVec.getLsbD place = second.toBitVec.getLsbD place

theorem octet_ext {first second : UInt8}
    (bit0 : SameBit first second 0) (bit1 : SameBit first second 1)
    (bit2 : SameBit first second 2) (bit3 : SameBit first second 3)
    (bit4 : SameBit first second 4) (bit5 : SameBit first second 5)
    (bit6 : SameBit first second 6) (bit7 : SameBit first second 7) : first = second := by
  apply UInt8.toBitVec_inj.mp
  apply BitVec.eq_of_getLsbD_eq
  intro place bound
  have places : place = 0 ∨ place = 1 ∨ place = 2 ∨ place = 3 ∨ place = 4 ∨ place = 5 ∨
      place = 6 ∨ place = 7 := by omega
  rcases places with rfl | rfl | rfl | rfl | rfl | rfl | rfl | rfl <;> assumption

theorem first_octet (b0 b1 : UInt8) :
    ((b0 >>> 2) <<< 2) ||| ((((b0 &&& 0x03) <<< 4) ||| (b1 >>> 4)) >>> 4) = b0 := by
  apply octet_ext <;> simp [SameBit]

theorem second_octet (b0 b1 b2 : UInt8) :
    ((((b0 &&& 0x03) <<< 4) ||| (b1 >>> 4)) <<< 4) |||
      ((((b1 &&& 0x0f) <<< 2) ||| (b2 >>> 6)) >>> 2) = b1 := by
  apply octet_ext <;> simp [SameBit]

theorem third_octet (b1 b2 : UInt8) :
    ((((b1 &&& 0x0f) <<< 2) ||| (b2 >>> 6)) <<< 6) ||| (b2 &&& 0x3f) = b2 := by
  apply octet_ext <;> simp [SameBit]

theorem first_octet_end (b0 : UInt8) :
    ((b0 >>> 2) <<< 2) ||| (((b0 &&& 0x03) <<< 4) >>> 4) = b0 := by
  apply octet_ext <;> simp [SameBit]

theorem second_octet_end (b0 b1 : UInt8) :
    ((((b0 &&& 0x03) <<< 4) ||| (b1 >>> 4)) <<< 4) ||| (((b1 &&& 0x0f) <<< 2) >>> 2) = b1 := by
  apply octet_ext <;> simp [SameBit]

theorem sextet_of_mask {group : UInt8} (masked : group &&& 0x3f = group) : group.toNat < 64 := by
  have bound : (group &&& 0x3f).toNat ≤ 0x3f := by
    rw [UInt8.toNat_and]
    exact Nat.and_le_right
  rw [masked] at bound
  omega

theorem first_sextet (b0 : UInt8) : (b0 >>> 2).toNat < 64 := by
  apply sextet_of_mask
  apply octet_ext <;> simp [SameBit]

theorem second_sextet (b0 b1 : UInt8) : (((b0 &&& 0x03) <<< 4) ||| (b1 >>> 4)).toNat < 64 := by
  apply sextet_of_mask
  apply octet_ext <;> simp [SameBit]

theorem third_sextet (b1 b2 : UInt8) : (((b1 &&& 0x0f) <<< 2) ||| (b2 >>> 6)).toNat < 64 := by
  apply sextet_of_mask
  apply octet_ext <;> simp [SameBit]

theorem second_sextet_end (b0 : UInt8) : ((b0 &&& 0x03) <<< 4).toNat < 64 := by
  apply sextet_of_mask
  apply octet_ext <;> simp [SameBit]

theorem third_sextet_end (b1 : UInt8) : ((b1 &&& 0x0f) <<< 2).toNat < 64 := by
  apply sextet_of_mask
  apply octet_ext <;> simp [SameBit]

theorem fourth_sextet (b2 : UInt8) : (b2 &&& 0x3f).toNat < 64 := by
  apply sextet_of_mask
  apply octet_ext <;> simp [SameBit]

section Tables

variable {κ ν : Type} [DecidableEq κ]

def writeEntries (table : κ → ν) (entries : List (κ × ν)) : κ → ν :=
  entries.foldl (fun table entry => Function.update table entry.1 entry.2) table

theorem writeEntries_other {entries : List (κ × ν)} {key : κ}
    (absent : key ∉ entries.map Prod.fst) (table : κ → ν) :
    writeEntries table entries key = table key := by
  induction entries generalizing table with
  | nil => rfl
  | cons entry entries ih =>
      rw [List.map_cons, List.mem_cons, not_or] at absent
      have later := ih absent.2 (Function.update table entry.1 entry.2)
      rwa [Function.update_of_ne absent.1] at later

theorem writeEntries_entry {entries : List (κ × ν)} (distinct : (entries.map Prod.fst).Nodup)
    {key : κ} {value : ν} (member : (key, value) ∈ entries) (table : κ → ν) :
    writeEntries table entries key = value := by
  induction entries generalizing table with
  | nil => cases member
  | cons entry entries ih =>
      rw [List.map_cons, List.nodup_cons] at distinct
      rcases List.mem_cons.mp member with rfl | later
      · have kept := writeEntries_other distinct.1 (Function.update table key value)
        rwa [Function.update_self] at kept
      · exact ih distinct.2 later _

theorem writeEntries_zipIdx {keys : List κ} (distinct : keys.Nodup) {place : Nat} {key : κ}
    (found : keys[place]? = some key) (value : Nat → ν) (table : κ → ν) :
    writeEntries table (keys.zipIdx.map fun entry => (entry.1, value entry.2)) key =
      value place := by
  have firsts : (keys.zipIdx.map fun entry => (entry.1, value entry.2)).map Prod.fst = keys := by
    rw [List.map_map]
    exact List.zipIdx_map_fst 0 keys
  apply writeEntries_entry (by rwa [firsts])
  apply List.mem_map.mpr
  exact ⟨(key, place), List.mk_mem_zipIdx_iff_getElem?.mpr found, rfl⟩

end Tables

end Sextets
