import AxSentinel.EvaluationScores

/-! # What counts as a document hit

`_document_hit_rate` takes an expected document for retrieved if its reference is the id of a chunk,
or is part of the text of a chunk's location.  A file name may be part of a longer one, so the rate
is the share of the documents that were retrieved only where no reference is part of a location it
is no whole segment of (`hitsAreReal_iff`). -/
namespace AxSentinel
open Python (isIn split)

/-- The reference is the id of a chunk, or a segment of its location. -/
def realHit (retrieved : List RetrievedChunk) (reference : String) : Bool :=
  retrieved.any fun chunk => reference = chunk.documentId || reference ∈ split chunk.location '/'

/-- What `_document_hit_rate` takes for a hit. -/
def countedHit (retrieved : List RetrievedChunk) (reference : String) : Bool :=
  retrieved.any fun chunk => reference = chunk.documentId || isIn reference chunk.location

/-- The share of the references that are hits; of none it is one, as the code has it. -/
def realHitRate (expected : List String) (retrieved : List RetrievedChunk) : ℚ :=
  if expected = [] then 1 else Shares.share (realHit retrieved) expected

/-- The rate is the share of the documents that were retrieved. -/
def HitsAreReal (expected : List String) (retrieved : List RetrievedChunk) : Prop :=
  documentHitRate expected retrieved = realHitRate expected retrieved

/-- A reference that is part of the location of a chunk is a segment of the location of a chunk, or
the id of one. -/
def NamedInFull (expected : List String) (retrieved : List RetrievedChunk) : Prop :=
  ∀ reference ∈ expected, ∀ chunk ∈ retrieved, isIn reference chunk.location = true →
    ∃ other ∈ retrieved, reference = other.documentId ∨ reference ∈ split other.location '/'

section Hits
variable {expected : List String} {retrieved : List RetrievedChunk} {reference : String}

theorem realHit_iff : realHit retrieved reference = true ↔
    ∃ chunk ∈ retrieved, reference = chunk.documentId ∨ reference ∈ split chunk.location '/' := by
  unfold realHit
  simp only [List.any_eq_true, Bool.or_eq_true, decide_eq_true_eq]

theorem countedHit_iff : countedHit retrieved reference = true ↔
    ∃ chunk ∈ retrieved, reference = chunk.documentId ∨ isIn reference chunk.location = true := by
  unfold countedHit
  simp only [List.any_eq_true, Bool.or_eq_true, decide_eq_true_eq]

/-- A segment of a location is part of it. -/
theorem countedHit_of_realHit (h : realHit retrieved reference = true) :
    countedHit retrieved reference = true := by
  obtain ⟨chunk, hchunk, hhit⟩ := realHit_iff.mp h
  exact countedHit_iff.mpr ⟨chunk, hchunk, hhit.imp_right Python.isIn_of_mem_split⟩

theorem namedInFull_iff : NamedInFull expected retrieved ↔
    ∀ reference ∈ expected, countedHit retrieved reference = true →
      realHit retrieved reference = true := by
  constructor
  · intro hnamed reference hreference hcounted
    obtain ⟨chunk, hchunk, hid | hpart⟩ := countedHit_iff.mp hcounted
    · exact realHit_iff.mpr ⟨chunk, hchunk, .inl hid⟩
    · exact realHit_iff.mpr (hnamed reference hreference chunk hchunk hpart)
  · intro hreal reference hreference chunk hchunk hpart
    exact realHit_iff.mp
      (hreal reference hreference (countedHit_iff.mpr ⟨chunk, hchunk, .inr hpart⟩))

theorem documentHitRate_eq : documentHitRate expected retrieved =
    if expected = [] then 1 else Shares.share (countedHit retrieved) expected := rfl

theorem realHitRate_le : realHitRate expected retrieved ≤ documentHitRate expected retrieved := by
  rw [documentHitRate_eq, realHitRate]
  split
  · exact le_rfl
  · exact Shares.share_mono fun _ _ => countedHit_of_realHit

/-- The rate is right if and only if every reference that is part of a location is a hit. -/
theorem realHitRate_eq_iff : realHitRate expected retrieved = documentHitRate expected retrieved ↔
    NamedInFull expected retrieved := by
  rw [documentHitRate_eq, realHitRate, namedInFull_iff]
  by_cases hnil : expected = []
  · subst hnil
    simp
  · rw [if_neg hnil, if_neg hnil]
    exact Shares.share_eq_iff fun _ _ => countedHit_of_realHit

end Hits

/-- **Document hits.**  Whatever documents are expected and chunks retrieved, the rate is that of
the real hits if and only if every reference that is part of a location names a chunk in full. -/
theorem hitsAreReal_iff (expected : List String) (retrieved : List RetrievedChunk) :
    HitsAreReal expected retrieved ↔ NamedInFull expected retrieved := by
  rw [← realHitRate_eq_iff]
  exact eq_comm

/-- **The rate of a run.**  It is the mean of the rates of the real hits if and only if no case has
a reference that is part of a location only. -/
theorem documentHitRate_eq_iff {rt : Runtime} {caseFold : Nat → List Nat} {id : String}
    {createdAt : DateTime} {evaluated : List (EvaluationCase × CaseGeneration)}
    {run : StoredEvaluation} (h : runEvaluation rt caseFold id createdAt evaluated = .ok run) :
    run.documentHitRate = Shares.mean (fun e =>
        realHitRate e.1.expectedDocumentIds e.2.chunks) evaluated ↔
      ∀ e ∈ evaluated, NamedInFull e.1.expectedDocumentIds e.2.chunks := by
  obtain ⟨-, -, hrate⟩ := runEvaluation_ok h
  rw [hrate, eq_comm, Shares.mean_eq_iff fun _ _ => realHitRate_le]
  exact forall₂_congr fun _ _ => realHitRate_eq_iff

namespace Sample

/-- A chunk of the manual of the pump. -/
def pumpChunk : RetrievedChunk :=
  ⟨"Check the seal.", ⟨0, le_rfl, zero_le_one⟩,
    "s3://bucket/documents/manual-7/pump-manual.md", "manual-7", none⟩

example : ["pump-manual.md", "manual-7", "manual.md"].map (realHit [pumpChunk]) =
    [true, true, false] := by decide

end Sample

/-- A chunk of another document is taken for a hit, as its name ends in the expected one. -/
theorem not_hitsAreReal : ¬ ∀ expected retrieved,
    (∀ reference ∈ expected, reference ≠ "" ∧ '/' ∉ reference.toList) →
      HitsAreReal expected retrieved := by
  intro hall
  have hreal := hall ["manual.md"] [Sample.pumpChunk] (by decide)
  have hnamed := realHitRate_eq_iff.mp hreal.symm
  obtain ⟨chunk, hchunk, hid | hsegment⟩ :=
    hnamed "manual.md" List.mem_cons_self Sample.pumpChunk List.mem_cons_self (by decide)
  · obtain rfl := List.mem_singleton.mp hchunk
    exact absurd hid (by decide)
  · obtain rfl := List.mem_singleton.mp hchunk
    exact absurd hsegment (by decide)

end AxSentinel
