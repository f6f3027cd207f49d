import AxSentinel.Ranking
import AxSentinel.Retrieval
import Mathlib.Algebra.Field.Rat
import Mathlib.Data.Finset.Card

/-! # What is retrieved in process

Without the address of a knowledge service `LocalRetriever` ranks the documents of its own table by
the number of terms of the query they contain.  `StableTopK` says what it returns in terms of the
sets of these terms and of positions in the table; `rank` is an instance of the general ranking, the
library's `exists_best` (`localRetrieve_stableTopK`). -/
namespace AxSentinel

/-! ## Terms -/

/-- The terms of a query. -/
def distinctTerms (casefold : String → String) (query : String) : Finset String :=
  (((Python.words query).filter fun term => 2 ≤ term.length).map casefold).toFinset

/-- Those a document contains, in its file name or its text. -/
def matchedTerms (casefold : String → String) (query : String) (document : DocumentRecord) :
    Finset String :=
  (distinctTerms casefold query).filter fun term =>
    Python.isIn term (casefold (document.filename ++ " " ++ document.searchText)) = true

section Terms
variable (casefold : String → String) (query : String)

theorem nodup_queryTerms : (queryTerms casefold query).Nodup := nodup_eraseDups _

theorem toFinset_queryTerms :
    (queryTerms casefold query).toFinset = distinctTerms casefold query := by
  ext term
  simp [queryTerms, distinctTerms, List.mem_eraseDups]

theorem length_queryTerms :
    (queryTerms casefold query).length = (distinctTerms casefold query).card := by
  rw [← toFinset_queryTerms, List.toFinset_card_of_nodup (nodup_queryTerms ..)]

theorem termMatches_eq (document : DocumentRecord) :
    termMatches casefold (queryTerms casefold query) document =
      (matchedTerms casefold query document).card := by
  unfold termMatches matchedTerms
  rw [← toFinset_queryTerms, ← List.toFinset_filter, List.countP_eq_length_filter,
    List.toFinset_card_of_nodup ((nodup_queryTerms ..).filter _)]

theorem card_matchedTerms_le (document : DocumentRecord) :
    (matchedTerms casefold query document).card ≤ (distinctTerms casefold query).card :=
  Finset.card_filter_le ..

end Terms

/-! ## The ranking -/

/-- The chunk of a document: its score is the share of the terms of the query it contains. -/
structure IsChunkOf (casefold : String → String) (query : String) (document : DocumentRecord)
    (chunk : RetrievedChunk) : Prop where
  content : chunk.content =
    if document.searchText = "" then document.filename else document.searchText
  location : chunk.location = "s3://local/" ++ document.s3Key
  documentId : chunk.documentId = document.id
  documentVersion : chunk.documentVersion = some document.version
  score : chunk.score.1 =
    (matchedTerms casefold query document).card / (distinctTerms casefold query).card
  positive : 0 < chunk.score.1
  le_one : chunk.score.1 ≤ 1

/-- The chunks are those of the documents at some positions of the table, each once: as many as
contain a term, up to the limit, in decreasing order of the number of terms they contain, with ties
in the order of the table; and no other document contains more. -/
structure StableTopK (casefold : String → String) (documents : List DocumentRecord)
    (query : String) (limit : Int) (positions : List (Fin documents.length))
    (chunks : List RetrievedChunk) : Prop where
  chunkOf : List.Forall₂ (fun i => IsChunkOf casefold query documents[i]) positions chunks
  distinct : positions.Nodup
  count : (chunks.length : Int) =
    min limit (documents.countP fun document => (matchedTerms casefold query document).Nonempty)
  ordered : positions.Pairwise fun i j =>
    (matchedTerms casefold query documents[j]).card <
        (matchedTerms casefold query documents[i]).card ∨
      (matchedTerms casefold query documents[j]).card =
        (matchedTerms casefold query documents[i]).card ∧ i < j
  optimal : ∀ i ∈ positions, ∀ j ∉ positions,
    (matchedTerms casefold query documents[j]).card ≤
      (matchedTerms casefold query documents[i]).card

section Rank
variable {casefold : String → String} {query : String}

/-- The documents with a term, ranked by the library. -/
theorem rank_eq (documents : List DocumentRecord) {limit : Int} (h : 1 ≤ limit) :
    rank casefold documents query limit =
      ((Ranking.sortDesc (fun document => (matchedTerms casefold query document).card)
        (documents.filter fun document => (matchedTerms casefold query document).Nonempty)).take
          limit.toNat).map fun document =>
            localChunk (matchedTerms casefold query document).card
              (distinctTerms casefold query).card document := by
  have hsort : ∀ xs : List (Nat × DocumentRecord),
      xs.mergeSort (fun x y => y.1 ≤ x.1) = Ranking.sortDesc Prod.fst xs := fun _ => rfl
  have hslice : ∀ xs : List (Nat × DocumentRecord),
      Python.sliceTo xs limit = xs.take limit.toNat := fun xs => if_neg (by omega)
  have hmatched : (fun document => decide ((matchedTerms casefold query document).card ≠ 0)) =
      fun document => decide (matchedTerms casefold query document).Nonempty := by
    funext document
    simp [Finset.nonempty_iff_ne_empty]
  unfold rank
  simp only [hsort, hslice, termMatches_eq, length_queryTerms, List.filter_map,
    Ranking.sortDesc_map, ← List.map_take, List.map_map, Function.comp_def, ← hmatched]

/-- A document that contains a term has the chunk that is made of it. -/
theorem isChunkOf_localChunk {document : DocumentRecord}
    (h : (matchedTerms casefold query document).Nonempty) :
    IsChunkOf casefold query document
      (localChunk (matchedTerms casefold query document).card (distinctTerms casefold query).card
        document) := by
  have hpos : 0 < (matchedTerms casefold query document).card := h.card_pos
  have hle := card_matchedTerms_le casefold query document
  have hscore : matchScore (matchedTerms casefold query document).card
      (distinctTerms casefold query).card =
        (matchedTerms casefold query document).card / (distinctTerms casefold query).card := by
    unfold matchScore
    rw [max_eq_left (by omega), min_eq_right]
    rw [div_le_one (by exact_mod_cast hpos.trans_le hle)]
    exact_mod_cast hle
  refine ⟨rfl, rfl, rfl, rfl, hscore, ?_, (matchScore_mem ..).2⟩
  show 0 < matchScore _ _
  rw [hscore]
  exact div_pos (by exact_mod_cast hpos) (by exact_mod_cast hpos.trans_le hle)

theorem rank_stableTopK (documents : List DocumentRecord) {limit : Int} (h : 1 ≤ limit) :
    ∃ positions, StableTopK casefold documents query limit positions
      (rank casefold documents query limit) := by
  obtain ⟨positions, hbest, hitems⟩ := Ranking.exists_best
    (fun document => (matchedTerms casefold query document).card)
    (fun document => (matchedTerms casefold query document).Nonempty) limit.toNat documents
  have hrank : rank casefold documents query limit = positions.map fun i =>
      localChunk (matchedTerms casefold query documents[i]).card
        (distinctTerms casefold query).card documents[i] := by
    rw [rank_eq documents h, hitems, List.map_map]
    rfl
  refine ⟨positions, ?_, ?_, ?_, hbest.ordered, ?_⟩
  · rw [hrank, List.forall₂_map_right_iff, List.forall₂_same]
    exact fun i hi => isChunkOf_localChunk (of_decide_eq_true (hbest.selected i hi))
  · apply hbest.ordered.imp
    rintro i j (hless | ⟨-, hij⟩) rfl
    · exact lt_irrefl _ hless
    · exact lt_irrefl _ hij
  · rw [hrank, List.length_map, hbest.length]
    omega
  · intro i hi j hj
    -- a document without a term is not a candidate, and contains no more than any other
    by_cases hmatch : (matchedTerms casefold query documents[j]).Nonempty
    · exact hbest.optimal i hi j hj (decide_eq_true hmatch)
    · rw [Finset.not_nonempty_iff_eq_empty.mp hmatch, Finset.card_empty]
      exact Nat.zero_le _

end Rank

/-- **Local retrieval is a stable top-k.**  In a process without the address of a knowledge service,
`retrieve` makes no request and returns the chunks of the best documents of its table. -/
theorem localRetrieve_stableTopK (d : Deployment) (service : ServiceName)
    (hlocal : isSet (d.settings service).knowledgeServiceUrl = false) (fuel : Nat)
    (query : String) (limit : Int) (authorization : Option String) (h : 1 ≤ limit) :
    ∃ chunks positions,
      localRetrieve d fuel service query limit authorization = some (0, .ok chunks) ∧
        StableTopK d.casefold (d.documents service) query limit positions chunks := by
  obtain ⟨positions, hrank⟩ := rank_stableTopK (d.documents service) h
  refine ⟨_, positions, ?_, hrank⟩
  unfold localRetrieve
  rw [hlocal]
  rfl

namespace Sample

/-- A process without the address of a knowledge service, and a table of two manuals. -/
def inProcess : Deployment :=
  { localstack with
    settings := fun _ => .ofEnv []
    documents := fun _ =>
      [⟨⟨"manual-1", "motor.md", .manual, "queued", "documents/manual-1/motor.md", "sha256:1", 0⟩,
          "Check the voltage."⟩,
        ⟨⟨"manual-2", "bearing.md", .manual, "queued", "documents/manual-2/bearing.md", "sha256:2",
          0⟩, "Check the temperature."⟩] }

theorem localRetrieve_stableTopK_inProcess :
    ∃ chunks positions, localRetrieve inProcess 0 .knowledge "bearing temperature" 1 none =
        some (0, .ok chunks) ∧
      StableTopK inProcess.casefold (inProcess.documents .knowledge) "bearing temperature" 1
        positions chunks :=
  localRetrieve_stableTopK inProcess .knowledge rfl 0 "bearing temperature" 1 none (by decide)

end Sample

end AxSentinel
