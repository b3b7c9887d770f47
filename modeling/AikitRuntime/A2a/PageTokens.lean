import AikitRuntime.A2a.Accounts
import AikitRuntime.Durability.Fields
import AikitRuntime.Library.Base64

/-!
# Page tokens

A page token is a cursor in JSON, in base64: the hash of the tasks that are listed, the hash of the query, and the id
of the task that comes next. `PageCodec.Lawful` says what the encodings do, and a token that was made is read back
(`decodePageToken_encode`).

The hash of a query is of the principal's identity and of the filters but the lower bound of the status timestamp; the
hash of a listing is of all its tasks. Unless SHA-256 collides, each says what it is of (`listQueryHash_eq_iff`,
`listSnapshotHash_eq_iff`).
-/

namespace AikitRuntime.A2a

open Library Durability Mcp

/-! ### Encodings -/

/-- What base64 and `serde_json` do: they read what they wrote, and base64 without padding has a known length. -/
structure PageCodec.Lawful [PageCodec] : Prop where
  decode_encode : ∀ bytes : List UInt8, PageCodec.decode (PageCodec.encode bytes) = some bytes
  size_encode : ∀ bytes : List UInt8, (PageCodec.encode bytes).utf8ByteSize = (4 * bytes.length + 2) / 3
  fromSlice_toVec : ∀ cursor : A2aPageCursor, cursor.schemaVersion < 2 ^ 32 →
    PageCodec.fromSlice cursor.toVec = some cursor

/-- A character of the texts in a token. -/
def isSign (c : Char) : Bool := isPlain c && !isWhitespace c && !isControl c

/-- A text in a token. -/
structure IsName (text : String) : Prop where
  nonempty : text.toList ≠ []
  length : text.toList.length ≤ 100
  signs : text.toList.all isSign = true

variable {text : String}

theorem IsName.plain (h : IsName text) : text.toList.all isPlain = true := by
  refine List.all_eq_true.mpr fun c hc => ?_
  have hsign := List.all_eq_true.mp h.signs c hc
  simp only [isSign, Bool.and_eq_true] at hsign
  exact hsign.1.1

theorem IsName.isIdentifier (h : IsName text) : IsIdentifier text := by
  have hsigns := List.all_eq_true.mp h.signs
  refine ⟨?_, ?_, ?_⟩
  · obtain ⟨c, rest, hlist⟩ := List.exists_cons_of_ne_nil h.nonempty
    have hfirst := hsigns c (hlist ▸ List.mem_cons_self)
    simp only [isSign, Bool.and_eq_true, Bool.not_eq_true'] at hfirst
    rw [isBlank_eq, hlist, List.all_cons, hfirst.1.2]
    rfl
  · have hsize : text.utf8ByteSize = charBytes text.toList := by
      unfold charBytes
      rw [String.ofList_toList]
    rw [hsize, charBytes_plain h.plain]
    exact Nat.le_trans h.length (by decide)
  · rw [hasControl_eq]
    refine List.any_eq_false.mpr fun c hc => ?_
    have hsign := hsigns c hc
    simp only [isSign, Bool.and_eq_true, Bool.not_eq_true'] at hsign
    rw [hsign.2]
    exact Bool.false_ne_true

/-- A hash is a name. -/
theorem isName_stableInputHash (value : Value) : IsName (sha256.stableInputHash value) := by
  have hlist : (sha256.stableInputHash value).toList =
      "sha256:".toList ++ hexSha256 (utf8 (canonicalJson value)) := by
    show ("sha256:" ++ String.ofList _).toList = _
    simp only [String.toList_append, String.toList_ofList]
  have hdigits : Sha256.hexDigits.all isSign = true := by decide
  have hhex : ∀ n, isSign (Sha256.hexDigit n) = true := by
    intro n
    unfold Sha256.hexDigit
    cases hdigit : Sha256.hexDigits[n]? with
    | none => decide
    | some c => exact List.all_eq_true.mp hdigits c (List.mem_of_getElem? hdigit)
  refine ⟨?_, ?_, ?_⟩
  · rw [hlist]
    exact List.append_ne_nil_of_left_ne_nil (by decide) _
  · rw [hlist, List.length_append, length_hexSha256]
    decide
  · rw [hlist, List.all_append]
    have hfixed : "sha256:".toList.all isSign = true := by decide
    rw [hfixed]
    unfold hexSha256
    simp [Sha256.hexWord, hhex]

variable {n : Nat}

/-- A task's id is a name. -/
theorem isName_taskId (h : n ≤ maxSafeInteger) : IsName (generatedId "a2a-task" n) := by
  have hlist : (generatedId "a2a-task" n).toList = "a2a-task".toList ++ ['-'] ++ (padded n).toList := by
    unfold generatedId
    rw [String.toList_append, String.toList_append]
    rfl
  have hdigit : ∀ c ∈ (padded n).toList, isSign c = true := by
    have hcases : ∀ k, k < 58 → 48 ≤ k → isSign (Char.ofNat k) = true := by decide
    have hsign : ∀ c : Char, c.isDigit = true → isSign c = true := by
      intro c hc
      rw [Char.isDigit, Bool.and_eq_true, decide_eq_true_eq, decide_eq_true_eq] at hc
      rw [← Char.ofNat_toNat c]
      exact hcases c.toNat (Nat.lt_succ_of_le hc.2) hc.1
    intro c hc
    unfold padded at hc
    rw [String.toList_append, String.toList_ofList, List.mem_append, toString_toList] at hc
    rcases hc with hzero | hdigit
    · rw [List.eq_of_mem_replicate hzero]
      decide
    · exact hsign c (Nat.isDigit_of_mem_toDigits (by decide) (by decide) hdigit)
  refine ⟨?_, ?_, ?_⟩
  · rw [hlist, List.append_assoc]
    exact List.append_ne_nil_of_left_ne_nil (by decide) _
  · rw [hlist, List.length_append, List.length_append, length_padded h]
    decide
  · have hfixed : ("a2a-task".toList ++ ['-']).all isSign = true := by decide
    rw [hlist, List.all_append, hfixed, List.all_eq_true.mpr hdigit]
    rfl

/-! ### Reading a token back -/

theorem length_utf8 (chars : List Char) : (utf8 chars).length = charBytes chars := by
  unfold utf8 charBytes
  rw [toList_eq]
  rfl

theorem charBytes_jsonString (h : text.toList.all isPlain = true) :
    charBytes (jsonString text) = text.toList.length + 2 := serializedBytes_plain h

variable {queryHash snapshotHash taskId : String}

/-- A cursor of names is short. -/
theorem length_toVec (hsnapshot : IsName snapshotHash)
    (hquery : IsName queryHash) (htask : IsName taskId) :
    (A2aPageCursor.toVec ⟨2, snapshotHash, queryHash, taskId⟩).length ≤ 400 := by
  have hsnapshotLength := hsnapshot.length
  have hqueryLength := hquery.length
  have htaskLength := htask.length
  have hkeys : charBytes (jsonString "schema_version") = 16 ∧ charBytes (jsonString "snapshot_hash") = 15 ∧
      charBytes (jsonString "query_hash") = 12 ∧ charBytes (jsonString "next_task_id") = 14 ∧
      charBytes (toString 2).toList = 1 ∧ ('\x7b' : Char).utf8Size = 1 ∧ (':' : Char).utf8Size = 1 ∧
      charBytes ['\x7d'] = 1 := by decide +kernel
  obtain ⟨hschema, hsnapshotKey, hqueryKey, htaskKey, htwo, hopen, hcolon, hclose⟩ := hkeys
  unfold A2aPageCursor.toVec
  dsimp only
  rw [length_utf8, charBytes_cons, charBytes_append, charBytes_commaSeparated]
  simp only [List.map_cons, List.map_nil, List.sum_cons, List.sum_nil, charBytes_append, charBytes_cons, hschema,
    hsnapshotKey, hqueryKey, htaskKey, htwo, hopen, hcolon, hclose, charBytes_jsonString hsnapshot.plain,
    charBytes_jsonString hquery.plain, charBytes_jsonString htask.plain]
  omega

theorem decodePageToken_encode [PageCodec] (hcodec : PageCodec.Lawful)
    (hsnapshot : IsName snapshotHash) (hquery : IsName queryHash) (htask : IsName taskId) :
    encodePageToken taskId snapshotHash queryHash ≠ "" ∧
      decodePageToken (encodePageToken taskId snapshotHash queryHash) = .ok ⟨2, snapshotHash, queryHash, taskId⟩ := by
  have hlength := length_toVec hsnapshot hquery htask
  have hpos : 0 < (A2aPageCursor.toVec ⟨2, snapshotHash, queryHash, taskId⟩).length := by
    unfold A2aPageCursor.toVec
    dsimp only
    rw [length_utf8, charBytes_cons]
    have hopen : ('\x7b' : Char).utf8Size = 1 := by decide
    omega
  have hsize := hcodec.size_encode (A2aPageCursor.toVec ⟨2, snapshotHash, queryHash, taskId⟩)
  have hne : encodePageToken taskId snapshotHash queryHash ≠ "" := by
    intro hempty
    unfold encodePageToken at hempty
    rw [hempty, String.utf8ByteSize_empty] at hsize
    omega
  refine ⟨hne, ?_⟩
  have hshort : ¬ 1024 < (encodePageToken taskId snapshotHash queryHash).utf8ByteSize := by
    unfold encodePageToken
    omega
  unfold decodePageToken
  rw [refuseIf_of_not hne, ok_bind, refuseIf_of_not hshort, ok_bind, encodePageToken, hcodec.decode_encode, okOr_some,
    ok_bind, hcodec.fromSlice_toVec _ (show 2 < 2 ^ 32 by decide), okOr_some, ok_bind, refuseIf_of_not (by simp), ok_bind,
    Mcp.validateIdentifier_eq_ok.mpr hsnapshot.isIdentifier, ok_bind,
    Mcp.validateIdentifier_eq_ok.mpr hquery.isIdentifier, ok_bind,
    Mcp.validateIdentifier_eq_ok.mpr htask.isIdentifier, ok_bind]
  rfl

/-! ### What the hashes say -/

/-- What the hash of a query is of. -/
def queryJson (principal : ProtocolPrincipal) (request : A2aListTasksRequest) : Value :=
  .ofFields [("subject", .string principal.subject), ("principal_tenant", textOrNull principal.tenantId),
    ("requested_tenant", textOrNull request.tenant), ("context_id", textOrNull request.contextId),
    ("status", (request.status.map A2aTaskState.json).getD .null)]

/-- What the hash of a listing is of. -/
def snapshotJson (tasks : List A2aTaskRecord) : Value := .array (tasks.map A2aTaskRecord.json)

theorem listQueryHash_eq [Digest] (principal : ProtocolPrincipal) (request : A2aListTasksRequest) :
    listQueryHash principal request = stableInputHash (queryJson principal request) := rfl

theorem listSnapshotHash_eq [Digest] (tasks : List A2aTaskRecord) :
    listSnapshotHash tasks = stableInputHash (snapshotJson tasks) := rfl

theorem proper_textOrNull (text : Option String) : (textOrNull text).Proper := by
  cases text <;> trivial

theorem proper_stateJson (state : A2aTaskState) : state.json.Proper := by
  cases state <;> trivial

theorem proper_queryJson (principal : ProtocolPrincipal) (request : A2aListTasksRequest) :
    (queryJson principal request).Proper := by
  refine Value.proper_ofFields fun field hmem => ?_
  simp only [List.mem_cons, List.not_mem_nil, or_false] at hmem
  rcases hmem with rfl | rfl | rfl | rfl | rfl
  · trivial
  · exact proper_textOrNull _
  · exact proper_textOrNull _
  · exact proper_textOrNull _
  · cases request.status with
    | none => trivial
    | some state => exact proper_stateJson state

theorem mem_optionalField {key : String} {value : Option Value} {field : String × Value}
    (h : field ∈ optionalField key value) : value = some field.2 := by
  cases value with
  | none => cases h
  | some v =>
    rw [List.mem_singleton.mp h]

theorem proper_mappingJson (mapping : A2aRunMapping) : mapping.json.Proper := by
  refine Value.proper_ofFields fun field hmem => ?_
  simp only [List.mem_cons, List.not_mem_nil, or_false] at hmem
  rcases hmem with rfl | rfl | rfl | rfl | rfl <;> trivial

theorem proper_taskJson (task : A2aTaskRecord) : task.json.Proper := by
  refine Value.proper_ofFields fun field hmem => ?_
  simp only [List.mem_append, List.mem_cons, List.not_mem_nil, or_false] at hmem
  rcases hmem with ((((rfl | rfl | rfl) | hmem) | rfl | rfl) | hmem) | hmem
  · exact proper_mappingJson _
  · exact proper_stateJson _
  · trivial
  · obtain ⟨_, _, heq⟩ := Option.map_eq_some_iff.mp (mem_optionalField hmem)
    rw [← heq]
    trivial
  · trivial
  · trivial
  · obtain ⟨_, _, heq⟩ := Option.map_eq_some_iff.mp (mem_optionalField hmem)
    rw [← heq]
    trivial
  · obtain ⟨_, _, heq⟩ := Option.map_eq_some_iff.mp (mem_optionalField hmem)
    rw [← heq]
    trivial

theorem proper_snapshotJson (tasks : List A2aTaskRecord) : (snapshotJson tasks).Proper := by
  refine Value.proper_array fun item hmem => ?_
  obtain ⟨task, -, rfl⟩ := List.mem_map.mp hmem
  exact proper_taskJson task

/-! #### Fields that are the same -/

theorem same_textOrNull {text text' : Option String} (h : Value.Same (textOrNull text) (textOrNull text')) :
    text = text' := by
  cases text with
  | none =>
    cases text' with
    | none => rfl
    | some _ => cases h.1
  | some s =>
    cases text' with
    | none => cases h.1
    | some t => rw [Value.Same.string h]

theorem same_stateJson {state state' : A2aTaskState} (h : Value.Same state.json state'.json) : state = state' := by
  cases state <;> cases state' <;> first | rfl | exact absurd (Value.Same.string h) (by decide)

theorem foldl_optionalField (key k : String) (value found : Option Value) :
    (optionalField k value).foldl (fun found field => if field.1 = key then some field.2 else found) found =
      if k = key then value.or found else found := by
  cases value <;> simp [optionalField]

theorem same_mapping {mapping mapping' : A2aRunMapping} (h : Value.Same mapping.json mapping'.json) :
    mapping = mapping' := by
  have hcontext := h.get? "context_id"
  have hsession := h.get? "session_id"
  have htask := h.get? "task_id"
  have hrun := h.get? "run_id"
  have hmessage := h.get? "message_id"
  simp only [A2aRunMapping.json, Value.get?_ofFields, List.foldl_cons, List.foldl_nil, String.reduceEq, if_true,
    if_false, Option.rel_some_some] at hcontext hsession htask hrun hmessage
  cases mapping
  cases mapping'
  rw [A2aRunMapping.mk.injEq]
  exact ⟨hcontext.string, hsession.string, htask.string, hrun.string, hmessage.string⟩

theorem same_natural {k : Nat} (h : Value.Same (natural n) (natural k)) : n = k := by
  have hnumber := Value.Same.number h
  rwa [Number.posInt.injEq] at hnumber

theorem same_task {task task' : A2aTaskRecord} (h : Value.Same task.json task'.json) : task = task' := by
  have hmapping := h.get? "mapping"
  have hstate := h.get? "state"
  have hsubject := h.get? "owner_subject"
  have htenant := h.get? "owner_tenant_id"
  have hcreated := h.get? "created_revision"
  have hupdated := h.get? "updated_revision"
  have hmessage := h.get? "status_message"
  have htimestamp := h.get? "status_timestamp_unix_ms"
  simp only [A2aTaskRecord.json, Value.get?_ofFields, List.foldl_append, foldl_optionalField, List.foldl_cons,
    List.foldl_nil, String.reduceEq, if_true, if_false, Option.rel_some_some, Option.or_none]
    at hmapping hstate hsubject htenant hcreated hupdated hmessage htimestamp
  have htimestamps : task.statusTimestampUnixMs = task'.statusTimestampUnixMs := by
    revert htimestamp
    cases task.statusTimestampUnixMs <;> cases task'.statusTimestampUnixMs
    · exact fun _ => rfl
    · exact nofun
    · exact nofun
    · exact fun hsame => congrArg some (same_natural (Option.rel_some_some.mp hsame))
  cases task
  cases task'
  rw [A2aTaskRecord.mk.injEq]
  exact ⟨same_mapping hmapping, same_stateJson hstate, hsubject.string, Value.same_texts htenant, same_natural hcreated,
    same_natural hupdated, Value.same_texts hmessage, htimestamps⟩

variable {tasks tasks' : List A2aTaskRecord}

theorem same_tasks (h : Value.Same (snapshotJson tasks) (snapshotJson tasks')) :
    tasks = tasks' := by
  have hitems := Value.Same.items h
  rw [List.forall₂_map_left_iff, List.forall₂_map_right_iff] at hitems
  exact List.forall₂_eq_eq_eq ▸ hitems.imp fun _ _ => same_task

/-- What the hash of a query tells apart: the identity of the principal, and the filters but the time stamp. -/
structure SameQuery (principal principal' : ProtocolPrincipal) (request request' : A2aListTasksRequest) : Prop where
  identity : A2aContextOwner.fromPrincipal principal = .fromPrincipal principal'
  tenant : request.tenant = request'.tenant
  contextId : request.contextId = request'.contextId
  status : request.status = request'.status

variable {principal principal' : ProtocolPrincipal} {request request' : A2aListTasksRequest}

theorem same_queryJson (h : Value.Same (queryJson principal request) (queryJson principal' request')) :
    SameQuery principal principal' request request' := by
  have hsubject := h.get? "subject"
  have hprincipal := h.get? "principal_tenant"
  have htenant := h.get? "requested_tenant"
  have hcontext := h.get? "context_id"
  have hstatus := h.get? "status"
  simp only [queryJson, Value.get?_ofFields, List.foldl_cons, List.foldl_nil, String.reduceEq, if_true, if_false,
    Option.rel_some_some] at hsubject hprincipal htenant hcontext hstatus
  refine ⟨?_, same_textOrNull htenant, same_textOrNull hcontext, ?_⟩
  · rw [A2aContextOwner.fromPrincipal, A2aContextOwner.fromPrincipal, A2aContextOwner.mk.injEq]
    exact ⟨hsubject.string, same_textOrNull hprincipal⟩
  · revert hstatus
    cases request.status with
    | none =>
      cases request'.status with
      | none => exact fun _ => rfl
      | some state => exact fun hsame => by cases state <;> cases hsame.1
    | some state =>
      cases request'.status with
      | none => exact fun hsame => by cases state <;> cases hsame.1
      | some state' => exact fun hsame => congrArg some (same_stateJson hsame)

theorem SameQuery.json_eq (h : SameQuery principal principal' request request') :
    queryJson principal request = queryJson principal' request' := by
  have hidentity := h.identity
  rw [A2aContextOwner.fromPrincipal, A2aContextOwner.fromPrincipal, A2aContextOwner.mk.injEq] at hidentity
  unfold queryJson
  rw [hidentity.1, hidentity.2, h.tenant, h.contextId, h.status]

/-- The texts that are hashed for two queries do not collide. -/
def QueriesApart (principal principal' : ProtocolPrincipal) (request request' : A2aListTasksRequest) : Prop :=
  ¬ Collision (utf8 (canonicalJson (queryJson principal request))) (utf8 (canonicalJson (queryJson principal' request')))

/-- The texts that are hashed for two listings do not collide. -/
def ListingsApart (tasks tasks' : List A2aTaskRecord) : Prop :=
  ¬ Collision (utf8 (canonicalJson (snapshotJson tasks))) (utf8 (canonicalJson (snapshotJson tasks')))

theorem listQueryHash_eq_iff (hapart : QueriesApart principal principal' request request') :
    @listQueryHash sha256 principal request = @listQueryHash sha256 principal' request' ↔
      SameQuery principal principal' request request' := by
  refine ⟨fun h => same_queryJson (same_of_stableInputHash (proper_queryJson _ _) (proper_queryJson _ _) hapart h),
    fun h => ?_⟩
  exact congrArg sha256.stableInputHash h.json_eq

theorem listSnapshotHash_eq_iff (hapart : ListingsApart tasks tasks') :
    @listSnapshotHash sha256 tasks = @listSnapshotHash sha256 tasks' ↔ tasks = tasks' := by
  refine ⟨fun h => same_tasks (same_of_stableInputHash (proper_snapshotJson _) (proper_snapshotJson _) hapart h),
    fun h => ?_⟩
  rw [h]

end AikitRuntime.A2a
