import AxSentinel.Interleaving
import AxSentinel.Retrieval

/-! # Which document a chunk is from

`upload_document` stores a document under a fresh id and its object under a key that ends in the
name of the file.  `LocalRetriever` reads the id from the record; the Bedrock retriever takes the
last part of the key, the file name, for it.  So the two agree on the documents whose name is
their id, and on no others (`chunksName_iff`). -/
namespace AxSentinel
open Effects

/-! ## Uploads -/

/-- What the standard library decides about a file. -/
structure FileRuntime where
  /-- `sha256(content).hexdigest()`. -/
  sha256 : List UInt8 → String
  /-- `content.decode("utf-8", errors="replace")`. -/
  decodeUtf8 : List UInt8 → String
  casefold : String → String

/-- A call of `upload_document`. -/
structure Upload where
  filename : Option String
  contentType : Option String
  content : List UInt8
  documentType : DocumentType
  principal : Principal

inductive KnowledgeOp where
  | uuid4
  | now
  | putObject (key : String) (body : List UInt8) (contentType : String)
  | putDocument (id : String) (record : DocumentRecord)
  | publish (eventType : String) (payload : Document) (key actorId : String)

abbrev knowledgeOps : Signature Exc where
  Op := KnowledgeOp
  Reply
    | .uuid4 => String
    | .now => Instant
    | _ => Unit

/-- The document store and the table of the knowledge service. -/
structure KnowledgeStores where
  objects : AList fun _ : String => List UInt8 × String
  documents : AList fun _ : String => DocumentRecord

/-- The operations, when none fails; ids and times are left open. -/
abbrev knowledgeStores : Machine knowledgeOps where
  World := KnowledgeStores
  Choice := String × Instant
  exec
    | .uuid4, c, w => (.ok c.1, w)
    | .now, c, w => (.ok c.2, w)
    | .putObject key body contentType, _, w =>
        (.ok (), { w with objects := w.objects.insert key (body, contentType) })
    | .putDocument id record, _, w =>
        (.ok (), { w with documents := w.documents.insert id record })
    | .publish .., _, w => (.ok (), w)

/-- The operations, any of which but the clock and the source of ids may raise. -/
abbrev knowledge : Machine knowledgeOps :=
  knowledgeStores.faulty fun op _ => match op with | .uuid4 | .now => false | _ => true

/-- An operation. -/
def store (op : KnowledgeOp) : Program knowledgeOps (knowledgeOps.Reply op) :=
  .perform knowledgeOps op

/-- The suffixes of the files whose text is searched. -/
def searchableSuffixes : List String := [".txt", ".md", ".csv", ".json", ".log"]

/-- `safe_name`. -/
def safeName (filename : Option String) : String :=
  Python.pathName (if isSet filename then filename.getD "" else "unnamed")

/-- `upload_document`. -/
def uploadDocument (rt : FileRuntime) (upload : Upload) : Program knowledgeOps Document := do
  let principal ← Program.ofExcept
    (requireRolesDependency [.operatorManager, .systemAdmin] (some upload.principal))
  if upload.content.length > 20 * 1024 * 1024 then
    throw (.http 413 "Document exceeds the 20 MiB limit")
  else
    let documentId ← store .uuid4
    let name := safeName upload.filename
    let s3Key := "documents/" ++ documentId ++ "/" ++ name
    let uploadedAt ← store .now
    let document : Document :=
      { id := documentId
        filename := name
        documentType := upload.documentType
        indexingStatus := "queued"
        s3Key := s3Key
        version := "sha256:" ++ rt.sha256 upload.content
        uploadedAt := uploadedAt }
    store (.putObject s3Key upload.content
      (if isSet upload.contentType then upload.contentType.getD "" else "application/octet-stream"))
    let searchText :=
      if rt.casefold (Python.pathSuffix name) ∈ searchableSuffixes then
        rt.decodeUtf8 upload.content
      else ""
    store (.putDocument document.id ⟨document, searchText⟩)
    store (.publish "document.registered" document document.id principal.subject)
    pure document

/-- The knowledge service with no document. -/
def noDocuments : KnowledgeStores := ⟨∅, ∅⟩

/-- The documents that are registered, in the order the table lists them. -/
def KnowledgeStores.registered (w : KnowledgeStores) : List DocumentRecord :=
  w.documents.entries.map Sigma.snd

/-! ## Chunks -/

/-- The URI of the object of a document. -/
def s3Uri (bucket : String) (document : DocumentRecord) : String :=
  "s3://" ++ bucket ++ "/" ++ document.s3Key

/-- A retriever returns the chunk for the object of the document: the local one, or the Bedrock
one for a result with the URI of the object. -/
inductive ChunkOf (bucket : String) (document : DocumentRecord) : RetrievedChunk → Prop
  | localRetriever (found terms : Nat) : ChunkOf bucket document (localChunk found terms document)
  | bedrockKnowledgeBase {result : RetrievalResult} {chunk : RetrievedChunk} :
      result.uri = some (s3Uri bucket document) → bedrockChunk result = .ok chunk →
      ChunkOf bucket document chunk

/-- A chunk names the document it came from; so chunks of two documents name different ones, and
chunks of one document the same. -/
structure ChunksName (bucket : String) (documents : List DocumentRecord) : Prop where
  named : ∀ document ∈ documents, ∀ chunk, ChunkOf bucket document chunk →
    chunk.documentId = document.id
  distinct : ∀ document ∈ documents, ∀ document' ∈ documents, document.id ≠ document'.id →
    ∀ chunk chunk', ChunkOf bucket document chunk → ChunkOf bucket document' chunk' →
      chunk.documentId ≠ chunk'.documentId
  alike : ∀ document ∈ documents, ∀ chunk chunk', ChunkOf bucket document chunk →
    ChunkOf bucket document chunk' → chunk.documentId = chunk'.documentId

/-- The two other properties follow from the first. -/
theorem ChunksName.of_named {bucket : String} {documents : List DocumentRecord}
    (h : ∀ document ∈ documents, ∀ chunk, ChunkOf bucket document chunk →
      chunk.documentId = document.id) : ChunksName bucket documents where
  named := h
  distinct document hmem document' hmem' hne chunk chunk' hchunk hchunk' := by
    rw [h document hmem chunk hchunk, h document' hmem' chunk' hchunk']
    exact hne
  alike document hmem chunk chunk' hchunk hchunk' := by
    rw [h document hmem chunk hchunk, h document hmem chunk' hchunk']

/-- Every chunk the local retriever ranks is one of a document. -/
theorem chunkOf_of_mem_rank {casefold : String → String} {documents : List DocumentRecord}
    {query : String} {limit : Int} {chunk : RetrievedChunk}
    (h : chunk ∈ rank casefold documents query limit) (bucket : String) :
    ∃ document ∈ documents, ChunkOf bucket document chunk := by
  obtain ⟨⟨found, document⟩, hslice, rfl⟩ := List.mem_map.mp h
  have hsorted := Python.mem_of_mem_sliceTo hslice
  rw [List.mem_mergeSort] at hsorted
  obtain ⟨document', hmem, heq⟩ := List.mem_map.mp (List.mem_filter.mp hsorted).1
  obtain ⟨-, rfl⟩ := Prod.mk.inj heq
  exact ⟨document', hmem, .localRetriever _ _⟩

/-! ## The keys of the objects -/

/-- The key of the object of a document: its last part is the file name. -/
structure DocumentRecord.Keyed (record : DocumentRecord) : Prop where
  s3Key_eq : record.s3Key = "documents/" ++ record.id ++ "/" ++ record.filename
  filename : '/' ∉ record.filename.toList

/-- An upload stores a document under its id, and with its key. -/
def StoresKeyed : KnowledgeOp → Prop
  | .putDocument id record => record.id = id ∧ record.Keyed
  | _ => True

theorem stores_uploadDocument (rt : FileRuntime) (upload : Upload) :
    (uploadDocument rt upload).Obeys (fun _ op => StoresKeyed op) (fun _ _ => True) [] := by
  have hperform : ∀ {β : Type} (op : KnowledgeOp)
      (f : knowledgeOps.Reply op → Program knowledgeOps β) (past : List (Move knowledgeOps)),
      StoresKeyed op →
      (∀ r past, (f r).Obeys (fun _ op => StoresKeyed op) (fun _ _ => True) past) →
      (store op >>= f).Obeys (fun _ op => StoresKeyed op) (fun _ _ => True) past := by
    intro β op f past hop hf
    refine Program.Obeys.bind ⟨hop, fun r => ?_⟩ fun past r => hf r past
    cases r <;> trivial
  unfold uploadDocument
  cases requireRolesDependency [.operatorManager, .systemAdmin] (some upload.principal) with
  | error e => trivial
  | ok principal =>
    rw [Program.ofExcept_ok, Program.ret_bind]
    split
    · trivial
    · refine hperform _ _ _ trivial fun documentId _ => ?_
      refine hperform _ _ _ trivial fun uploadedAt _ => ?_
      refine hperform _ _ _ trivial fun _ _ => ?_
      refine hperform _ _ _ ⟨rfl, rfl, Python.slash_not_mem_pathName _⟩ fun _ _ => ?_
      exact hperform _ _ _ trivial fun _ _ => trivial

/-- One step keeps the registered documents keyed. -/
theorem keyed_exec {op : KnowledgeOp} (hop : StoresKeyed op) (c : knowledge.Choice)
    {w : KnowledgeStores} (hw : ∀ record ∈ w.registered, record.Keyed) :
    ∀ record ∈ (knowledge.exec op c w).2.registered, record.Keyed := by
  have hreliable : ∀ record ∈ (knowledgeStores.exec op c.1 w).2.registered, record.Keyed := by
    cases op with
    | putDocument id stored =>
      intro record hmem
      obtain ⟨entry, hentry, rfl⟩ := List.mem_map.mp hmem
      rw [AList.entries_insert] at hentry
      rcases List.mem_cons.mp hentry with rfl | hentry
      · exact hop.2
      · exact hw _ (List.mem_map_of_mem ((List.kerase_sublist _ _).subset hentry))
    | _ => exact hw
  rcases knowledgeStores.faulty_exec _ op c w with h | ⟨-, -, -, h | h⟩
  · rw [h]
    exact hreliable
  · rw [h]
    exact hw
  · rw [h]
    exact hreliable

/-- **In every run the registered documents are keyed.** -/
theorem keyed_of_uploads {rt : FileRuntime} {s : System knowledge Upload Document}
    (hs : System.Reachable (uploadDocument rt) noDocuments s) :
    ∀ record ∈ s.world.registered, record.Keyed := by
  have H := (System.Reachable.conforms (Q := fun _ _ _ => True)
    (P := fun _ _ op => StoresKeyed op) hs (stores_uploadDocument rt)).history
  generalize s.history = h, s.world = w at H
  induction H with
  | nil => exact fun _ hmem => nomatch hmem
  | snoc i op c _ hok ih =>
    obtain ⟨-, -, hop⟩ := hok
    exact keyed_exec hop c ih

/-! ## What the retrievers name -/

/-- The Bedrock retriever names the file of a document. -/
theorem documentId_of_bedrockChunk {bucket : String} {document : DocumentRecord}
    (hkeyed : document.Keyed) {result : RetrievalResult} {chunk : RetrievedChunk}
    (huri : result.uri = some (s3Uri bucket document)) (h : bedrockChunk result = .ok chunk) :
    chunk.documentId = document.filename := by
  simp only [bedrockChunk] at h
  split at h
  · obtain rfl := Except.ok.inj h
    have hs3Uri : s3Uri bucket document =
        ("s3://" ++ bucket ++ "/" ++ ("documents/" ++ document.id)) ++ String.singleton '/' ++
          document.filename := by
      rw [s3Uri, hkeyed.s3Key_eq]
      simp [String.append_assoc]
    show Python.afterLast (result.uri.getD "unknown") '/' = document.filename
    rw [huri, Option.getD_some, hs3Uri]
    exact Python.afterLast_append hkeyed.filename
  · cases h

/-- A result with the URI of a document gives a chunk. -/
theorem exists_bedrockChunk (bucket : String) (document : DocumentRecord) :
    ∃ result chunk, result.uri = some (s3Uri bucket document) ∧
      bedrockChunk result = .ok chunk := by
  have hscore : (0 : ℚ) ≤ 0 ∧ (0 : ℚ) ≤ 1 := ⟨le_rfl, zero_le_one⟩
  refine ⟨⟨none, none, some (s3Uri bucket document), none⟩,
    ⟨"", ⟨0, hscore⟩, s3Uri bucket document, Python.afterLast (s3Uri bucket document) '/', none⟩,
    rfl, ?_⟩
  simp only [bedrockChunk, Option.getD_none, Option.getD_some]
  exact dif_pos hscore

/-- Where the chunks name their documents, the documents are named by their ids. -/
theorem ChunksName.filename_eq {bucket : String} {documents : List DocumentRecord}
    (h : ChunksName bucket documents) {document : DocumentRecord} (hmem : document ∈ documents)
    (hkeyed : document.Keyed) : document.filename = document.id := by
  obtain ⟨result, chunk, huri, hchunk⟩ := exists_bedrockChunk bucket document
  rw [← h.named document hmem chunk (.bedrockKnowledgeBase huri hchunk)]
  exact (documentId_of_bedrockChunk hkeyed huri hchunk).symm

/-- **The chunks name their documents exactly if every registered document has its id as its
name.** -/
theorem chunksName_iff {rt : FileRuntime} {s : System knowledge Upload Document}
    (hs : System.Reachable (uploadDocument rt) noDocuments s) (bucket : String) :
    ChunksName bucket s.world.registered ↔
      ∀ document ∈ s.world.registered, document.filename = document.id := by
  have hkeyed := keyed_of_uploads hs
  constructor
  · exact fun h document hmem => h.filename_eq hmem (hkeyed document hmem)
  · intro h
    refine .of_named fun document hmem chunk hchunk => ?_
    cases hchunk with
    | localRetriever found terms => rfl
    | bedrockKnowledgeBase huri hchunk =>
      rw [documentId_of_bedrockChunk (hkeyed document hmem) huri hchunk, h document hmem]

/-- Files are not looked into. -/
def opaqueFiles : FileRuntime := ⟨fun _ => "0", fun _ => "", Python.lower⟩

/-- An upload of a text file. -/
def manualUpload (filename : String) : Upload :=
  ⟨some filename, some "text/plain", [], .manual, localPrincipal⟩

/-- The actions by which the upload `i` runs to its end with the id `id`. -/
def uploading (i : Nat) (id filename : String) : List (Action knowledge Upload) :=
  .arrive (manualUpload filename) :: List.replicate 5 (.advance i ((id, 0), .none))

/-- The knowledge service after a file that has its id as its name was uploaded. -/
def namesake : System knowledge Upload Document :=
  System.run (uploadDocument opaqueFiles) (uploading 0 "2f6d" "2f6d") (System.start noDocuments)

/-- There the chunks name the document. -/
theorem chunksName_namesake :
    (namesake.world.registered.map fun document => (document.id, document.filename)) =
        [("2f6d", "2f6d")] ∧
      ChunksName "axsentinel-local" namesake.world.registered := by
  refine ⟨by rfl, (chunksName_iff (System.reachable_run _ _ _) _).mpr fun document hmem => ?_⟩
  obtain rfl := List.mem_singleton.mp hmem
  rfl

/-- The knowledge service after two manuals of one name were uploaded. -/
def twoManuals : System knowledge Upload Document :=
  System.run (uploadDocument opaqueFiles)
    (uploading 0 "2f6d" "manual.txt" ++ uploading 1 "8a41" "manual.txt") (System.start noDocuments)

/-- There the Bedrock retriever names both documents `manual.txt`, which is the id of neither. -/
theorem not_chunksName :
    (twoManuals.world.registered.map fun document => (document.id, document.filename)) =
        [("8a41", "manual.txt"), ("2f6d", "manual.txt")] ∧
      ¬ ∀ (rt : FileRuntime) (s : System knowledge Upload Document),
        System.Reachable (uploadDocument rt) noDocuments s →
          ∀ bucket, ChunksName bucket s.world.registered := by
  have hregistered : (twoManuals.world.registered.map fun document =>
      (document.id, document.filename)) = [("8a41", "manual.txt"), ("2f6d", "manual.txt")] := by
    rfl
  refine ⟨hregistered, fun h => ?_⟩
  have hreachable : System.Reachable (uploadDocument opaqueFiles) noDocuments twoManuals :=
    System.reachable_run _ _ _
  have hmem : ("8a41", "manual.txt") ∈ twoManuals.world.registered.map fun document =>
      (document.id, document.filename) := hregistered ▸ List.mem_cons_self
  obtain ⟨document, hdocument, heq⟩ := List.mem_map.mp hmem
  have hname := (h _ _ hreachable "axsentinel-local").filename_eq hdocument
    (keyed_of_uploads hreachable document hdocument)
  rw [(Prod.mk.inj heq).1, (Prod.mk.inj heq).2] at hname
  revert hname
  decide

end AxSentinel
