/-
Module: Unshield.Proofs.DescriptorCache
Purpose: Getting a descriptor, as a function of the cache and the header: a descriptor is decoded once,
  and to remember it changes the descriptor of no index.
Trusted boundary: none
Main exports: descriptorAt, getFileDescriptor_exit, preserves_getFileDescriptor, descriptorAt_of_run
-/
import Unshield.Core.Library

namespace Unshield

open Procedure

/-- The descriptor that a call gets for an index: the remembered one, or the one in the header. -/
def descriptorAt (header : Header) (fileDescriptors : Nat → Option FileDescriptor) (index : Int) :
    Exit FileDescriptor :=
  if ValidIndex header index then
    match fileDescriptors index.toNat with
    | some fd => .ret fd
    | none => readFileDescriptor header index
  else .fail

section

variable {σ : Type} {header : Header} {index : Int} {library library' : Library σ}

theorem getFileDescriptor_of_invalid (invalid : ¬ ValidIndex header index) :
    getFileDescriptor header index library = (.fail, library) := by
  rw [getFileDescriptor, Proc.bind_of_fail (Proc.require_run_of_not invalid _)]

theorem getFileDescriptor_of_remembered {fd : FileDescriptor} (valid : ValidIndex header index)
    (remembered : library.fileDescriptors index.toNat = some fd) :
    getFileDescriptor header index library = (.ret fd, library) := by
  rw [getFileDescriptor, Proc.bind_of_ret (Proc.require_run_of valid _), Proc.gets_bind_run]
  simp only [remembered, Proc.pure_run]

theorem getFileDescriptor_of_new (valid : ValidIndex header index)
    (new : library.fileDescriptors index.toNat = none) :
    getFileDescriptor header index library =
      match readFileDescriptor header index with
      | .ret fd => (.ret fd, { library with
          fileDescriptors := Function.update library.fileDescriptors index.toNat (some fd) })
      | .fail => (.fail, library)
      | .abort => (.abort, library)
      | .fault => (.fault, library)
      | .timeout => (.timeout, library) := by
  rw [getFileDescriptor, Proc.bind_of_ret (Proc.require_run_of valid _), Proc.gets_bind_run]
  simp only [new]
  cases readFileDescriptor header index <;> rfl

theorem preserves_getFileDescriptor {P : σ → Prop} (header : Header) (index : Int) :
    Proc.Preserves (fun library : Library σ => P library.io) (getFileDescriptor header index) := by
  refine .bind (.require _) fun _ => ?_
  refine .bind (.gets _) fun cached => ?_
  cases cached with
  | some fd => exact .pure fd
  | none =>
      refine .bind (.ofExit _) fun fd => ?_
      exact .bind (.modify fun library holds => holds) fun _ => .pure fd

/-- Getting a descriptor does not touch the world outside. -/
theorem getFileDescriptor_io : (getFileDescriptor header index library).2.io = library.io :=
  preserves_getFileDescriptor (P := fun io => io = library.io) header index library rfl

/-- What a call gets does not depend on the world outside the library. -/
theorem getFileDescriptor_exit :
    (getFileDescriptor header index library).1 = descriptorAt header library.fileDescriptors index := by
  rw [descriptorAt]
  by_cases valid : ValidIndex header index
  · rw [if_pos valid]
    cases remembered : library.fileDescriptors index.toNat with
    | some fd => rw [getFileDescriptor_of_remembered valid remembered]
    | none =>
        rw [getFileDescriptor_of_new valid remembered]
        cases readFileDescriptor header index <;> rfl
  · rw [if_neg valid, getFileDescriptor_of_invalid valid]

/-- To remember the descriptor that an index has changes the descriptor of no index. -/
theorem descriptorAt_update {fileDescriptors : Nat → Option FileDescriptor} {fd : FileDescriptor}
    (found : descriptorAt header fileDescriptors index = .ret fd) (other : Int) :
    descriptorAt header (Function.update fileDescriptors index.toNat (some fd)) other =
      descriptorAt header fileDescriptors other := by
  by_cases valid' : ValidIndex header other
  · by_cases same : other.toNat = index.toNat
    · have valid : ValidIndex header index := by
        by_contra invalid
        rw [descriptorAt, if_neg invalid] at found
        cases found
      obtain rfl : other = index := by
        have low := valid.1
        have low' := valid'.1
        omega
      rw [found, descriptorAt, if_pos valid', Function.update_self]
    · rw [descriptorAt, descriptorAt, Function.update_of_ne same]
  · rw [descriptorAt, descriptorAt, if_neg valid', if_neg valid']

/-- Remembering a descriptor changes the descriptor of no file. -/
theorem descriptorAt_of_run {fd : FileDescriptor}
    (run : getFileDescriptor header index library = (.ret fd, library')) :
    library'.io = library.io ∧ ∀ other,
      descriptorAt header library'.fileDescriptors other =
        descriptorAt header library.fileDescriptors other := by
  have found : descriptorAt header library.fileDescriptors index = .ret fd := by
    rw [← getFileDescriptor_exit, run]
  by_cases valid : ValidIndex header index
  · cases remembered : library.fileDescriptors index.toNat with
    | some found =>
        rw [getFileDescriptor_of_remembered valid remembered] at run
        cases run
        exact ⟨rfl, fun other => rfl⟩
    | none =>
        have decoded : readFileDescriptor header index = .ret fd := by
          rw [descriptorAt, if_pos valid, remembered] at found
          exact found
        rw [getFileDescriptor_of_new valid remembered, decoded] at run
        cases run
        exact ⟨rfl, descriptorAt_update found⟩
  · rw [descriptorAt, if_neg valid] at found
    cases found

end

end Unshield
