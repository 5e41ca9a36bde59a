import Reticulum.Resource.WindowBounds

/-!
# How an assembly ends

An assembly that goes through ends Complete or Corrupt and tells the link that the resource has
concluded. It does not go through when the data is not decompressed, which cancels the resource, nor
when the metadata of data with the right hash reaches behind its end or the storage file cannot be
opened, which panics (`concludes_iff`).

## Implementation notes

A panic is `none`. The copy that panics is gone, and the resource that the link holds stays as the
start of the assembly left it.
-/

namespace Reticulum.Resource

variable {fullHash : Bytes → Digest} {r : Resource} {d : Decoding} {env : Readings}

/-- The data hashes with the salt to the advertised hash. -/
def HashMatches (fullHash : Bytes → Digest) (r : Resource) (data : Bytes) : Prop :=
  fullHash (data ++ r.randomHash) = r.hash

/-- The assembly returns, with a status that is final, tells the link that the resource has
concluded, and is complete only with data that matches the hash. -/
def Concludes (fullHash : Bytes → Digest) (r : Resource) (d : Decoding) (env : Readings) : Prop :=
  ∃ r' effects, r.assemble fullHash d env = some (r', effects) ∧
    (r'.status = .complete ∨ r'.status = .corrupt ∨ r'.status = .failed) ∧
    .conclude ∈ effects ∧
    (r'.status = .complete → ∃ data, assembledData r d = some data ∧ HashMatches fullHash r data)

/-- The condition: the parts give data, and if that matches the hash, its metadata lies inside it
and the storage file can be opened. -/
def Concludable (fullHash : Bytes → Digest) (r : Resource) (d : Decoding) : Prop :=
  ∃ data, assembledData r d = some data ∧
    (HashMatches fullHash r data → metadataFits r data = true ∧ d.storageOk = true)

/-- How an assembly ends. -/
inductive AssemblyEnd (fullHash : Bytes → Digest) (r : Resource) (d : Decoding) :
    Option (Resource × List Effect) → Prop
  /-- the data is not decompressed -/
  | cancelled {r' : Resource} {effects : List Effect} (data : assembledData r d = none)
      (untold : .conclude ∉ effects) : AssemblyEnd fullHash r d (some (r', effects))
  /-- a slice reaches behind the end, or `unwrap` fails -/
  | panics {data : Bytes} (hdata : assembledData r d = some data)
      (hmatches : HashMatches fullHash r data)
      (hout : ¬(metadataFits r data = true ∧ d.storageOk = true)) : AssemblyEnd fullHash r d none
  | complete {data : Bytes} {r' : Resource} {effects : List Effect}
      (hdata : assembledData r d = some data) (hmatches : HashMatches fullHash r data)
      (hfits : metadataFits r data = true ∧ d.storageOk = true) (status : r'.status = .complete)
      (told : .conclude ∈ effects) : AssemblyEnd fullHash r d (some (r', effects))
  | corrupt {data : Bytes} {r' : Resource} {effects : List Effect}
      (hdata : assembledData r d = some data) (hmatches : ¬HashMatches fullHash r data)
      (status : r'.status = .corrupt) (told : .conclude ∈ effects) :
      AssemblyEnd fullHash r d (some (r', effects))

theorem status_segmentData (d : Decoding) : (r.segmentData d).status = r.status := by
  unfold segmentData
  split <;> rfl

/-- The end of an assembly tells the link. -/
theorem conclude_mem_finishAssembly (effects : List Effect) :
    .conclude ∈ (r.finishAssembly effects).2 :=
  List.mem_append_right effects List.mem_cons_self

/-- An assembly of a resource that has not failed ends in one of four ways. -/
theorem assemble_end (fullHash : Bytes → Digest) (d : Decoding) (env : Readings)
    (h : r.status ≠ .failed) :
    AssemblyEnd fullHash r d (r.assemble fullHash d env) := by
  unfold assemble
  rw [if_neg h]
  split
  · rename_i hdata
    exact .cancelled hdata (by simp)
  rename_i data hdata
  by_cases hmatches : fullHash (data ++ r.randomHash) = r.hash
  swap
  · rw [if_neg hmatches]
    exact .corrupt hdata hmatches rfl (conclude_mem_finishAssembly _)
  rw [if_pos hmatches]
  by_cases hfits : metadataFits r data = true ∧ d.storageOk = true
  swap
  · rw [if_neg hfits]
    exact .panics hdata hmatches hfits
  rw [if_pos hfits]
  refine .complete hdata hmatches hfits ?_ (conclude_mem_finishAssembly _)
  have hproved := (prove_complete fullHash env
    (r := { r with data := some data, status := .complete }) rfl).1
  calc _ = (({ r with data := some data, status := .complete } : Resource).prove
        fullHash env).1.status := status_segmentData d
    _ = .complete := congrArg Resource.status hproved

/-- For all parts, flags and segment numbers, the assembly of a resource that has not failed returns
with a final status and tells the link, and is complete only with data that matches the hash, if and
only if the parts give data, and the metadata of data that matches the hash lies inside it and its
storage file can be opened. -/
theorem concludes_iff (fullHash : Bytes → Digest) (r : Resource) (d : Decoding) (env : Readings)
    (h : r.status ≠ .failed) : Concludes fullHash r d env ↔ Concludable fullHash r d := by
  have hend := assemble_end fullHash d env h
  unfold Concludes Concludable
  generalize r.assemble fullHash d env = out at hend
  cases hend with
  | cancelled hdata huntold =>
      refine iff_of_false ?_ ?_
      · rintro ⟨r', effects, heq, -, htold, -⟩
        obtain ⟨rfl, rfl⟩ := Prod.mk.inj (Option.some.inj heq)
        exact huntold htold
      · rintro ⟨data, hsome, -⟩
        cases hdata.symm.trans hsome
  | panics hdata hmatches hout =>
      refine iff_of_false ?_ ?_
      · rintro ⟨r', effects, heq, -⟩
        cases heq
      · rintro ⟨data, hsome, hfits⟩
        obtain rfl := Option.some.inj (hdata.symm.trans hsome)
        exact hout (hfits hmatches)
  | complete hdata hmatches hfits hstatus htold =>
      refine iff_of_true ?_ ⟨_, hdata, fun _ => hfits⟩
      exact ⟨_, _, rfl, .inl hstatus, htold, fun _ => ⟨_, hdata, hmatches⟩⟩
  | corrupt hdata hmatches hstatus htold =>
      refine iff_of_true ?_ ⟨_, hdata, fun hother => absurd hother hmatches⟩
      refine ⟨_, _, rfl, .inr (.inl hstatus), htold, fun hcomplete => ?_⟩
      cases hcomplete.symm.trans hstatus

/-- A received segment of three bytes, which are taken for the length of its metadata. -/
def framedShort : Resource :=
  { blank false with
    status := .assembling
    hasMetadata := true
    hash := sameHash []
    totalParts := 1
    parts := [some [0, 0, 0, 0, 255, 255, 255]] }

/-- Nothing is encrypted or compressed, and no storage file is used. -/
def plainDecoding : Decoding where
  decrypt := some
  decompress := some
  storageOk := true
  combined := none

theorem concludes_iff_plain :
    Concludes (fun _ => ⟨List.replicate 32 1, rfl⟩) { framedShort with hasMetadata := false }
      plainDecoding slowReadings := by
  refine (concludes_iff _ _ _ _ (by decide)).mpr ⟨[255, 255, 255], rfl, fun _ => ?_⟩
  decide

/-- The metadata reaches behind the data: the assembly panics. -/
theorem concludes_false : ¬∀ (fullHash : Bytes → Digest) (r : Resource) (d : Decoding)
    (env : Readings), r.status ≠ .failed → Concludes fullHash r d env := by
  intro h
  obtain ⟨r', effects, heq, -⟩ := h (fun _ => ⟨List.replicate 32 1, rfl⟩) framedShort plainDecoding
    slowReadings (by decide)
  have hnone : framedShort.assemble (fun _ => ⟨List.replicate 32 1, rfl⟩) plainDecoding
      slowReadings = none := by decide
  cases hnone.symm.trans heq

end Reticulum.Resource
