import AikitRuntime.A2a.Sizes
import AikitRuntime.A2a.Updates

/-!
# Accounts

A message is measured before it is accepted, by the receipt that it would leave (`projectedReceipt`). Where
the message names no context, that receipt has a context id of zeros in it; the receipt that is kept has a
generated one, and perhaps other generated ids, of the same length. So what was measured is what is kept, and
every operation is a chain of updates (`updates_apply`).
-/

namespace AikitRuntime.A2a

open Library Durability Mcp Relation

/-! ### Generated ids -/

theorem isPlain_of_isDigit {c : Char} (h : c.isDigit = true) : isPlain c = true := by
  have hcases : ∀ n, n < 58 → 48 ≤ n → isPlain (Char.ofNat n) = true := by decide
  rw [Char.isDigit, Bool.and_eq_true, decide_eq_true_eq, decide_eq_true_eq] at h
  rw [← Char.ofNat_toNat c]
  exact hcases c.toNat (Nat.lt_succ_of_le h.2) h.1

theorem toString_toList (n : Nat) : (toString n).toList = Nat.toDigits 10 n := by
  show (Nat.repr n).toList = _
  rw [Nat.repr_eq_ofList_toDigits, String.toList_ofList]

variable {n : Nat}

theorem length_padded (h : n ≤ maxSafeInteger) : (padded n).toList.length = 16 := by
  have hdigits : (Nat.toDigits 10 n).length ≤ 16 :=
    (Nat.length_toDigits_le_iff (by decide) (by decide)).mpr (Nat.lt_of_le_of_lt h (by decide))
  unfold padded
  rw [String.toList_append, String.toList_ofList, List.length_append, List.length_replicate, ← String.length_toList,
    toString_toList]
  omega

theorem all_isPlain_padded (n : Nat) : (padded n).toList.all isPlain = true := by
  unfold padded
  rw [String.toList_append, String.toList_ofList, List.all_append, toString_toList, Bool.and_eq_true]
  constructor
  · rw [List.all_replicate]
    split <;> decide
  · exact List.all_eq_true.mpr fun c hc => isPlain_of_isDigit (Nat.isDigit_of_mem_toDigits (by decide) (by decide) hc)

/-- A generated id of a plain kind has a fixed size. -/
theorem serializedBytes_generatedId {kind : String} (hkind : kind.toList.all isPlain = true)
    (hn : n ≤ maxSafeInteger) :
    serializedBytes (.string (generatedId kind n)) = kind.toList.length + 17 + 2 := by
  have hlist : (generatedId kind n).toList = kind.toList ++ ['-'] ++ (padded n).toList := by
    unfold generatedId
    rw [String.toList_append, String.toList_append]
    rfl
  rw [serializedBytes_plain, hlist, List.length_append, List.length_append, length_padded hn, List.length_singleton]
  rw [hlist, List.all_append, List.all_append, hkind, all_isPlain_padded]
  decide

/-- So has a random context id. -/
theorem serializedBytes_randomContextId (bytes : Vector UInt8 16) :
    serializedBytes (.string (randomContextId bytes)) = 53 := by
  have hhex : ∀ n, n < 16 → isPlain (Sha256.hexDigit n) = true := by decide
  have hdigits : ∀ items : List UInt8, (items.flatMap fun byte =>
      [Sha256.hexDigit (byte.toNat / 16), Sha256.hexDigit (byte.toNat % 16)]).length = 2 * items.length ∧
      (items.flatMap fun byte =>
        [Sha256.hexDigit (byte.toNat / 16), Sha256.hexDigit (byte.toNat % 16)]).all isPlain = true := by
    intro items
    induction items with
    | nil => exact ⟨rfl, rfl⟩
    | cons byte rest ih =>
      have hbyte := byte.toNat_lt
      obtain ⟨hlength, hplain⟩ := ih
      refine ⟨?_, ?_⟩
      · rw [List.flatMap_cons, List.length_append, hlength, List.length_cons, List.length_cons, List.length_cons,
          List.length_nil]
        omega
      · rw [List.flatMap_cons, List.all_append, hplain, Bool.and_true, List.all_cons, List.all_cons, List.all_nil,
          hhex _ (by omega), hhex _ (by omega)]
        rfl
  have hlist : (randomContextId bytes).toList = "a2a-context-random-".toList ++ bytes.toList.flatMap fun byte =>
      [Sha256.hexDigit (byte.toNat / 16), Sha256.hexDigit (byte.toNat % 16)] := by
    unfold randomContextId
    rw [String.toList_append]
    exact congrArg _ String.toList_ofList
  obtain ⟨hlength, hplain⟩ := hdigits bytes.toList
  rw [serializedBytes_plain, hlist, List.length_append, hlength, Vector.length_toList]
  · decide
  · rw [hlist, List.all_append, hplain]
    decide

/-! ### Receipts of the same size -/

/-- Two mappings whose ids take the same bytes. -/
structure SameLengths (mapping mapping' : A2aRunMapping) : Prop where
  contextId : serializedBytes (.string mapping.contextId) = serializedBytes (.string mapping'.contextId)
  sessionId : serializedBytes (.string mapping.sessionId) = serializedBytes (.string mapping'.sessionId)
  taskId : serializedBytes (.string mapping.taskId) = serializedBytes (.string mapping'.taskId)
  runId : serializedBytes (.string mapping.runId) = serializedBytes (.string mapping'.runId)
  messageId : mapping.messageId = mapping'.messageId

theorem SameLengths.refl (mapping : A2aRunMapping) : SameLengths mapping mapping := ⟨rfl, rfl, rfl, rfl, rfl⟩

variable {mapping mapping' : A2aRunMapping}

theorem SameLengths.json (h : SameLengths mapping mapping') :
    serializedBytes mapping.json = serializedBytes mapping'.json :=
  SameSizes.ofFields (.cons ⟨rfl, h.contextId⟩ (.cons ⟨rfl, h.sessionId⟩ (.cons ⟨rfl, h.taskId⟩
    (.cons ⟨rfl, h.runId⟩ (.cons ⟨rfl, by rw [h.messageId]⟩ .nil)))))

/-- A receipt takes the same bytes with another mapping of the same lengths. -/
theorem SameLengths.receipt (h : SameLengths mapping mapping')
    (message : A2aMessage) (subject : String) (tenantId : Option String) (revision : Nat) :
    serializedBytes (A2aMessageReceipt.json ⟨message, mapping, subject, tenantId, revision⟩) =
      serializedBytes (A2aMessageReceipt.json ⟨message, mapping', subject, tenantId, revision⟩) := by
  refine SameSizes.ofFields ?_
  refine List.rel_append (List.rel_append ?_ ?_) (.cons ⟨rfl, rfl⟩ .nil)
  · exact .cons ⟨rfl, rfl⟩ (.cons ⟨rfl, h.json⟩ (.cons ⟨rfl, rfl⟩ .nil))
  · exact List.forall₂_same.mpr fun _ _ => ⟨rfl, rfl⟩

namespace A2aMapper

variable {m m' : A2aMapper} {message : A2aMessage} {principal : ProtocolPrincipal} {nowUnixMs : Nat}

/-! ### What is checked of the receipts -/

/-- The bytes of an owner's receipts, measured under the keys that they would have, are those that they have. -/
theorem sum_receipts (hkept : Kept m) :
    (((m.receipts.values.filter fun receipt => receipt.owner.admits principal).map fun receipt =>
        (scopedReceiptKey receipt.owner receipt.message.messageId).utf8ByteSize + serializedBytes receipt.json).sum) =
      total (messageReceipts.ownedBytes (.fromPrincipal principal)) m.receipts := by
  rw [sum_filter_values]
  refine total_congr fun key receipt hget => ?_
  rw [← hkept.receiptKeys key receipt hget]
  simp only [A2aContextOwner.admits_iff]
  rfl

/-- What `preflight_send_message` checks of the tasks of a message that starts one, and of the contexts if it
opens one. -/
structure RoomForTask (m : A2aMapper) (message : A2aMessage) (principal : ProtocolPrincipal) : Prop where
  count : m.tasks.size < maxTasks
  owner_count : total (ofOwner A2aTaskRecord.owner (.fromPrincipal principal)) m.tasks < maxTasksPerOwner
  context : (∀ contextId, message.contextId = some contextId →
      m.contexts[scopedContextKey (.fromPrincipal principal) contextId]? = none) →
    m.contexts.size < maxTasks ∧ total (ofOwner id (.fromPrincipal principal)) m.contextOwners < maxTasksPerOwner

theorem preflightReceipt_spec (hkept : Kept m) {u : Unit}
    (hnew : m.receipts[scopedReceiptKey (.fromPrincipal principal) message.messageId]? = none)
    (h : m.preflightReceipt message principal = .ok u) :
    ∃ mapping revisionSteps, m.projectedMapping message principal = .ok (mapping, revisionSteps) ∧
      messageReceipts.Room m.receipts m.receiptBytes
        (scopedReceiptKey (.fromPrincipal principal) message.messageId)
        ⟨message, mapping, principal.subject, principal.tenantId, m.revision + revisionSteps⟩ ∧
      (message.taskId = none → RoomForTask m message principal) := by
  simp only [preflightReceipt, projectedReceipt, bind_eq_ok, refuseIf_eq_ok, exists_unit, pure, Except.pure,
    Except.ok.injEq, ensureCountCapacity_eq_ok, ensureByteCapacity_eq_ok] at h
  obtain ⟨_, ⟨⟨mapping, revisionSteps⟩, hmapping, _, rfl⟩, added, hadded, hcount, ⟨hbytes, _⟩, ownerBytes, howned,
    hownedCount, ⟨hownedBytes, _⟩, htask⟩ := h
  have hsize : messageReceipts.entryBytes (scopedReceiptKey (.fromPrincipal principal) message.messageId)
      ⟨message, mapping, principal.subject, principal.tenantId, m.revision + revisionSteps⟩ = added :=
    (messageReceipts.entryStorageBytes_eq_ok.mp hadded).1
  have hsum : total (messageReceipts.ownedBytes (.fromPrincipal principal)) m.receipts = ownerBytes := by
    rw [← sum_receipts hkept]
    exact (sumBytes_eq_ok.mp howned).1
  have hnumber : (m.receipts.values.filter fun receipt => receipt.owner.admits principal).length =
      total (messageReceipts.owned (.fromPrincipal principal)) m.receipts := by
    rw [length_filter_values]
    simp only [A2aContextOwner.admits_iff]
    rfl
  rw [← hsize] at hbytes hownedBytes
  rw [hnumber] at hownedCount
  rw [← hsum] at hownedBytes
  refine ⟨mapping, revisionSteps, hmapping, ⟨hnew, hcount, hownedCount, hbytes, hownedBytes⟩, fun hnone => ?_⟩
  simp only [hnone, Option.isSome_none, skipIf_eq_ok, Bool.false_eq_true, false_or, bind_eq_ok, exists_unit,
    ensureCountCapacity_eq_ok, length_filter_values, A2aContextOwner.admits_iff] at htask
  obtain ⟨htasks, howner, hcontext⟩ := htask
  refine ⟨htasks, howner, fun hunknown => ?_⟩
  rcases hcontext with hknown | hcontext
  · cases hsome : message.contextId with
    | none => simp [hsome] at hknown
    | some contextId =>
      have hfalse := BTreeMap.contains_eq_false.mpr (hunknown contextId hsome)
      simp [hsome, hfalse] at hknown
  · exact hcontext

/-! ### Where a message is placed -/

/-- A message is placed as it was foreseen, with ids of the same lengths and at the same revision, and the
outboxes and receipts are not touched. -/
structure Foreseen (m : A2aMapper) (mapping : A2aRunMapping) (revisionSteps : Nat) (placement : Placement) : Prop where
  updates : Updates m placement.mapper
  receipts : placement.mapper.receipts = m.receipts
  receiptBytes : placement.mapper.receiptBytes = m.receiptBytes
  mapping : SameLengths mapping placement.mapping
  revision : placement.mapper.revision + 1 = m.revision + revisionSteps

variable {mapping : A2aRunMapping} {placement : Placement} {revisionSteps : Nat}

theorem foreseen_placeInTask {taskId : String} (htask : message.taskId = some taskId)
    (hmapping : m.projectedMapping message principal = .ok (mapping, revisionSteps))
    (h : m.placeInTask message principal taskId nowUnixMs = .ok placement) :
    Foreseen m mapping revisionSteps placement := by
  simp only [projectedMapping, htask, bind_eq_ok, okOr_eq_ok, Option.filter_eq_some_iff, pure, Except.pure,
    Except.ok.injEq, Prod.mk.injEq] at hmapping
  obtain ⟨task, ⟨hget, _⟩, rfl, rfl⟩ := hmapping
  simp only [placeInTask, bind_eq_ok, okOr_eq_ok, hget, Option.some.injEq] at h
  obtain ⟨_, rfl, _, _, _, _, _, _, h⟩ := h
  split at h
  · next hwaiting =>
    simp only [bind_eq_ok, pure, Except.pure, Except.ok.injEq] at h
    obtain ⟨_, _, rfl⟩ := h
    refine ⟨updates_moveTask hget rfl, rfl, rfl, .refl _, ?_⟩
    rw [if_pos hwaiting]
  · next hgoing =>
    simp only [bind_eq_ok, pure, Except.pure, Except.ok.injEq] at h
    obtain ⟨_, _, rfl⟩ := h
    refine ⟨.refl, rfl, rfl, .refl _, ?_⟩
    rw [if_neg hgoing]

variable {contextId : String}

variable {sessionId : String}

theorem sessionFor_cases
    (h : m.sessionFor principal contextId = .ok (sessionId, m')) :
    (m.contexts[scopedContextKey (.fromPrincipal principal) contextId]? = some sessionId ∧ m' = m) ∨
      (m.contexts[scopedContextKey (.fromPrincipal principal) contextId]? = none ∧
        sessionId = generatedId "a2a-session" m.nextSequence ∧ m' = { m with
          nextSequence := m.nextSequence + 1
          contexts := m.contexts.insert (scopedContextKey (.fromPrincipal principal) contextId) sessionId
          contextOwners := m.contextOwners.insert (scopedContextKey (.fromPrincipal principal) contextId)
            (.fromPrincipal principal) }) := by
  unfold sessionFor at h
  dsimp only at h
  split at h
  · next stored hget =>
    simp only [bind_eq_ok, pure, Except.pure, Except.ok.injEq, Prod.mk.injEq] at h
    obtain ⟨_, _, rfl, rfl⟩ := h
    exact .inl ⟨hget, rfl⟩
  · next hnone =>
    rw [Except.ok.injEq, Prod.mk.injEq] at h
    obtain ⟨rfl, rfl⟩ := h
    exact .inr ⟨hnone, rfl, rfl⟩

variable {draws : Draws}

variable {owner : A2aContextOwner}

theorem generateContextId_spec {rounds draw : Nat}
    (h : m.generateContextId owner draws rounds draw = .ok contextId) :
    m.contexts[scopedContextKey owner contextId]? = none ∧ ∃ bytes, contextId = randomContextId bytes := by
  induction rounds generalizing draw with
  | zero => cases h
  | succ rounds ih =>
    simp only [generateContextId, bind_eq_ok] at h
    obtain ⟨bytes, _, h⟩ := h
    split at h
    · exact ih h
    · next hfree =>
      rw [← Except.ok.inj h]
      exact ⟨BTreeMap.contains_eq_false.mp (eq_false_of_ne_true hfree), bytes, rfl⟩

/-- The context of a message that names none is new, and a random one. -/
theorem contextFor_spec
    (h : m.contextFor draws message (.fromPrincipal principal) = .ok contextId) :
    message.contextId = some contextId ∨ (message.contextId = none ∧
      m.contexts[scopedContextKey (.fromPrincipal principal) contextId]? = none ∧
      ∃ bytes, contextId = randomContextId bytes) := by
  unfold contextFor at h
  split at h
  · next named hnamed => exact .inl (hnamed.trans (by rw [Except.ok.inj h]))
  · next hnone => exact .inr ⟨hnone, generateContextId_spec (mapError_eq_ok.mp h)⟩

variable {offset : Nat}

theorem previewId_eq_ok {kind id : String} (h : m.previewId kind offset = .ok id) :
    m.nextSequence + offset ≤ maxSafeInteger ∧ id = generatedId kind (m.nextSequence + offset) := by
  simp only [previewId, bind_eq_ok, refuseIf_eq_ok, exists_unit, Nat.not_le, pure, Except.pure, Except.ok.injEq] at h
  exact ⟨Nat.le_of_lt h.1, h.2.symm⟩

/-- A session that is foreseen is one that was generated. -/
theorem previewSession_spec (hkept : Kept m)
    (h : m.previewSession owner contextId = .ok (sessionId, offset)) :
    ∃ n, n ≤ maxSafeInteger ∧ sessionId = generatedId "a2a-session" n := by
  unfold previewSession at h
  split at h
  · next stored hget =>
    rw [Except.ok.injEq, Prod.mk.injEq] at h
    exact h.1 ▸ hkept.sessions _ _ hget
  · obtain ⟨id, hid, heq⟩ := map_eq_ok.mp h
    rw [Prod.mk.injEq] at heq
    obtain ⟨hle, rfl⟩ := previewId_eq_ok hid
    exact ⟨_, hle, heq.1.symm⟩

theorem foreseen_placeInNewTask [Digest] (hwell : WellKept m) (hkept : Kept m) (htask : message.taskId = none)
    (hmapping : m.projectedMapping message principal = .ok (mapping, revisionSteps))
    (hroom : RoomForTask m message principal)
    (h : m.placeInNewTask draws message principal nowUnixMs = .ok placement) :
    Foreseen m mapping revisionSteps placement := by
  have hsessionPlain : ("a2a-session".toList).all isPlain = true := by decide
  have htaskPlain : ("a2a-task".toList).all isPlain = true := by decide
  have hrunPlain : ("a2a-run".toList).all isPlain = true := by decide
  simp only [projectedMapping, htask, bind_eq_ok, pure, Except.pure, Except.ok.injEq, Prod.mk.injEq] at hmapping
  obtain ⟨⟨session, offset⟩, hsession, task, htaskId, run, hrunId, rfl, rfl⟩ := hmapping
  obtain ⟨k, hk, rfl⟩ := previewSession_spec hkept hsession
  obtain ⟨htaskLe, rfl⟩ := previewId_eq_ok htaskId
  obtain ⟨hrunLe, rfl⟩ := previewId_eq_ok hrunId
  simp only [placeInNewTask, bind_eq_ok, refuseIf_eq_ok, exists_unit, Bool.not_eq_false, pure, Except.pure,
    Except.ok.injEq] at h
  obtain ⟨hcapacity, contextId, hcontext, ⟨sessionId, opened⟩, hopened, rfl⟩ := h
  simp only [hasCounterCapacity, Bool.and_eq_true, decide_eq_true_eq] at hcapacity
  obtain ⟨hids, _⟩ := hcapacity
  have hunknown (hnone : m.contexts[scopedContextKey (.fromPrincipal principal) contextId]? = none) :
      m.nextSequence + 3 ≤ maxSafeInteger ∧ m.contexts.size < maxTasks ∧
        total (ofOwner id (.fromPrincipal principal)) m.contextOwners < maxTasksPerOwner := by
    have hfree : ∀ named, message.contextId = some named →
        m.contexts[scopedContextKey (.fromPrincipal principal) named]? = none := by
      intro named hnamed
      rcases contextFor_spec hcontext with hsome | ⟨hmissing, _⟩
      · rw [hnamed, Option.some.injEq] at hsome
        rw [hsome, hnone]
      · rw [hnamed] at hmissing
        cases hmissing
    refine ⟨?_, hroom.context hfree⟩
    have hthree : (message.contextId.any fun contextId =>
        m.contexts.contains (scopedContextKey (.fromPrincipal principal) contextId)) = false := by
      cases hnamed : message.contextId with
      | none => rfl
      | some named =>
        rw [Option.any_some]
        exact BTreeMap.contains_eq_false.mpr (hfree named hnamed)
    rwa [if_neg (by rw [hthree]; exact Bool.false_ne_true)] at hids
  have hcontextSize : serializedBytes (.string (message.contextId.getD (randomContextId (Vector.replicate 16 0)))) =
      serializedBytes (.string contextId) := by
    rcases contextFor_spec hcontext with hsome | ⟨hmissing, _, bytes, rfl⟩
    · rw [hsome, Option.getD_some]
    · rw [hmissing, Option.getD_none, serializedBytes_randomContextId, serializedBytes_randomContextId]
  have hopen : Updates m opened ∧ opened.receipts = m.receipts ∧ opened.receiptBytes = m.receiptBytes ∧
      opened.tasks = m.tasks ∧ opened.revision = m.revision ∧ m.nextSequence ≤ opened.nextSequence ∧
      opened.nextSequence + 1 ≤ maxSafeInteger ∧ ∃ n, n ≤ maxSafeInteger ∧ sessionId = generatedId "a2a-session" n := by
    rcases sessionFor_cases hopened with ⟨hget, rfl⟩ | ⟨hnone, rfl, rfl⟩
    · refine ⟨.refl, rfl, rfl, rfl, rfl, Nat.le_refl _, ?_, hkept.sessions _ _ hget⟩
      split at hids <;> omega
    · obtain ⟨hthree, hcount, howner⟩ := hunknown hnone
      refine ⟨.tail (.single (.counted m (m.nextSequence + 1) m.revision)) (.contextOpened hnone hcount howner
        (by omega)), rfl, rfl, rfl, rfl, Nat.le_succ _, ?_, _, by omega, rfl⟩
      show m.nextSequence + 1 + 1 ≤ maxSafeInteger
      omega
  obtain ⟨hupdates, hreceipts, hreceiptBytes, htasks, hrevision, hsequence, hlast, n, hn, rfl⟩ := hopen
  have hfresh : opened.tasks[generatedId "a2a-task" opened.nextSequence]? = none := by
    rw [htasks]
    cases hget : m.tasks[generatedId "a2a-task" opened.nextSequence]? with
    | none => rfl
    | some stored =>
      obtain ⟨i, hi, heq⟩ := (hwell.tasks _ stored hget).generated
      have := generatedId_inj heq
      omega
  have hstart := @Update.taskStarted { opened with
      nextSequence := opened.nextSequence + 2, revision := opened.revision + 1 } opened.nextSequence
    ⟨⟨contextId, generatedId "a2a-session" n, generatedId "a2a-task" opened.nextSequence,
      generatedId "a2a-run" (opened.nextSequence + 1), message.messageId⟩, .working, principal.subject,
      principal.tenantId, opened.revision + 1, opened.revision + 1, none, some nowUnixMs⟩ hfresh
    (by rw [htasks]; exact hroom.count) (by rw [htasks]; exact hroom.owner_count) (Nat.le_of_succ_le hlast)
  refine ⟨(hupdates.tail (.counted opened (opened.nextSequence + 2) (opened.revision + 1))).tail hstart, hreceipts,
    hreceiptBytes, ⟨hcontextSize, ?_, ?_, ?_, rfl⟩, ?_⟩
  · rw [serializedBytes_generatedId hsessionPlain hk, serializedBytes_generatedId hsessionPlain hn]
  · rw [serializedBytes_generatedId htaskPlain htaskLe, serializedBytes_generatedId htaskPlain (Nat.le_of_succ_le hlast)]
  · rw [serializedBytes_generatedId hrunPlain hrunLe, serializedBytes_generatedId hrunPlain hlast]
  · show opened.revision + 1 + 1 = m.revision + 2
    rw [hrevision]

/-! ### Messages -/

section Messages

variable [Digest] {policy : A2aSendResponsePolicy} {envelope : GovernanceEnvelope} {mapping : A2aRunMapping}
  {resumedFrom : Option A2aTaskState} {draws : Draws} {correlation : CorrelationIdentity}

/-- The receipt that a message leaves. -/
def receiptOf (m : A2aMapper) (message : A2aMessage) (principal : ProtocolPrincipal) (mapping : A2aRunMapping) :
    A2aMessageReceipt :=
  ⟨message, mapping, principal.subject, principal.tenantId, m.revision + 1⟩

theorem updates_recordMessage
    (hroom : messageReceipts.Room m.receipts m.receiptBytes
      (scopedReceiptKey (.fromPrincipal principal) message.messageId) (receiptOf m message principal mapping)) :
    Updates m (m.recordMessage message principal policy envelope mapping resumedFrom).2 := by
  have hcounted : Updates m { m with revision := m.revision + 1 } :=
    .single (.counted m m.nextSequence (m.revision + 1))
  have hreceived := hcounted.tail (@Update.received { m with revision := m.revision + 1 }
    (receiptOf m message principal mapping) hroom)
  unfold recordMessage
  dsimp only
  split
  · exact hreceived
  · split
    · exact hreceived
    · next dispatched hdispatch =>
      have hdispatched := hreceived.tail (.dispatchInserted hdispatch)
      split
      · exact hdispatched
      · next accepted hevent => exact hdispatched.tail (.eventInserted hevent)

theorem updates_prepareSendMessageCandidate (hwell : WellKept m) (hkept : Kept m)
    (owner : Option ProtocolPrincipal) :
    Updates m (m.prepareSendMessageCandidateWithResponsePolicy draws message correlation owner policy nowUnixMs).2 := by
  unfold prepareSendMessageCandidateWithResponsePolicy
  dsimp only
  split
  · exact .refl
  · next principal =>
    split
    · split
      · exact .refl
      · split
        · exact .refl
        · next hnone =>
          split
          · exact .refl
          · next hpreflight =>
            split
            · exact .refl
            · next mapper mapping resumedFrom hplaced =>
              simp only [preflightSendMessage, hnone, bind_eq_ok, exists_unit] at hpreflight
              obtain ⟨foreseen, revisionSteps, hmapping, hroom, hroomTask⟩ :=
                preflightReceipt_spec hkept hnone hpreflight.2.2
              have hforeseen : Foreseen m foreseen revisionSteps ⟨mapper, mapping, resumedFrom⟩ := by
                cases htask : message.taskId with
                | none =>
                  rw [htask] at hplaced
                  exact foreseen_placeInNewTask hwell hkept htask hmapping (hroomTask htask) hplaced
                | some taskId =>
                  rw [htask] at hplaced
                  exact foreseen_placeInTask htask hmapping hplaced
              refine hforeseen.updates.trans (updates_recordMessage ?_)
              rw [hforeseen.receipts, hforeseen.receiptBytes]
              refine hroom.congr rfl ?_
              have hrevision : mapper.revision + 1 = m.revision + revisionSteps := hforeseen.revision
              unfold Outbox.entryBytes receiptOf
              rw [hrevision]
              exact congrArg _ (hforeseen.mapping.receipt _ _ _ _).symm
    · exact .refl

omit [Digest] in
theorem updates_installed {result : GovernedAction A2aAction × A2aMapper} (h : Updates m result.2) :
    Updates m (m.installed result).2 := by
  unfold installed
  dsimp only
  split
  · exact h
  · exact .refl

end Messages

end A2aMapper

/-! ### Every operation -/

section

variable [Digest] {m : A2aMapper}

omit [Digest] in
theorem updates_installedOr {result : ProtocolResult A2aMapper} (h : ∀ m', result = .ok m' → Updates m m') :
    Updates m (installedOr m result) := by
  cases result with
  | ok m' => exact h m' rfl
  | error => exact .refl

open A2aMapper in
/-- Every operation is a chain of updates. -/
theorem updates_apply (hwell : WellKept m) (hkept : Kept m) (operation : A2aOperation) :
    Updates m (m.apply operation) := by
  cases operation with
  | prepareSendMessage draws message correlation principal nowUnixMs =>
    exact updates_installed (updates_prepareSendMessageCandidate hwell hkept principal)
  | prepareSendMessageCandidateWithResponsePolicy draws message correlation principal policy nowUnixMs =>
    exact updates_prepareSendMessageCandidate hwell hkept principal
  | prepareCancelTask => exact updates_installed updates_prepareCancelTaskCandidate
  | prepareCancelTaskCandidate => exact updates_prepareCancelTaskCandidate
  | markDispatchRunning => exact updates_installedOr fun _ => updates_markDispatchRunning
  | markDispatchReconcilePending => exact updates_installedOr fun _ => updates_markDispatchReconcilePending
  | markDispatchSettled => exact updates_installedOr fun _ => updates_markDispatchSettled
  | markCancellationRunning => exact updates_installedOr fun _ => updates_markCancellationRunning
  | markCancellationReconcilePending => exact updates_installedOr fun _ => updates_markCancellationReconcilePending
  | markCancellationSettled => exact updates_installedOr fun _ => updates_markCancellationSettled
  | markEventReconcilePending => exact updates_installedOr fun _ => updates_markEventReconcilePending
  | markEventQuarantined => exact updates_installedOr fun _ => updates_markEventQuarantined
  | markEventSettled => exact updates_installedOr fun _ => updates_markEventSettled
  | clampRestoredEventRetryDeadlines =>
    exact updates_installedOr fun _ => updates_clampRestoredEventRetryDeadlines
  | requireInput => exact updates_installedOr fun _ => updates_transitionTaskCandidate
  | transitionTask => exact updates_installedOr fun _ => updates_transitionTaskCandidate
  | transitionDispatchTask => exact updates_installedOr fun _ => updates_transitionDispatchTask
  | acknowledgeCancellation => exact updates_installedOr fun _ => updates_acknowledgeCancellation
  | completeDispatchWithArtifacts =>
    refine updates_installedOr fun m' h => ?_
    obtain ⟨⟨task, m''⟩, hcomplete, rfl⟩ := map_eq_ok.mp h
    exact updates_completeDispatchOutput hwell hcomplete
  | completeDispatchWithMessage =>
    refine updates_installedOr fun m' h => ?_
    obtain ⟨⟨task, m''⟩, hcomplete, rfl⟩ := map_eq_ok.mp h
    exact updates_completeDispatchOutput hwell hcomplete

/-- Every run keeps the accounts. -/
theorem kept_afterRun (operations : List A2aOperation) : Kept (.afterRun operations) := by
  refine (A2aMapper.run_invariant (P := fun m => WellKept m ∧ Kept m) ⟨wellKept_new, kept_new⟩
    (fun m operation h => ?_) operations).2
  exact ⟨(effect_apply h.1 operation).wellKept h.1, (updates_apply h.1 h.2 operation).kept h.2⟩

end

end AikitRuntime.A2a
