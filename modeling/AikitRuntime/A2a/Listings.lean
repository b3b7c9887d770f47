import AikitRuntime.A2a.Atomicity
import AikitRuntime.A2a.PageTokens

/-!
# Listing tasks page by page

A `ListTasks` request is answered with a page, and the token of a page asks for the next one. Following the tokens of
one request, with any page sizes, lists every task of the principal that matches the filters once, the latest revision
first (`listsAll`).

A token that was made for another identity, for other filters or for other tasks is refused (`tokens_bound`), with one
exception: the hash of the query leaves out the lower bound of the status timestamp. Its documentation says that only what does not
select tasks stays out of the hash, and the bound does select them. A token of a query that differs in the bound alone
is accepted where the bound happens to select the same tasks.
-/

namespace AikitRuntime.A2a

open Library Durability Mcp

/-! ### What is listed -/

/-- The task is the principal's, and it passes the filters. -/
structure Matches (principal : ProtocolPrincipal) (request : A2aListTasksRequest) (task : A2aTaskRecord) : Prop where
  owner : task.owner = .fromPrincipal principal
  contextId : ∀ contextId, request.contextId = some contextId → task.mapping.contextId = contextId
  status : ∀ status, request.status = some status → task.state = status
  timestamp : ∀ after, request.statusTimestampAfterUnixMs = some after →
    ∃ timestamp, task.statusTimestampUnixMs = some timestamp ∧ after ≤ timestamp

/-- The order of a listing. -/
def PageBefore (a b : A2aTaskRecord) : Prop :=
  b.updatedRevision < a.updatedRevision ∨
    (a.updatedRevision = b.updatedRevision ∧ b.mapping.taskId < a.mapping.taskId)

/-- The tasks that a request asks for, each of them once, in order. -/
structure Listing (m : A2aMapper) (principal : ProtocolPrincipal) (request : A2aListTasksRequest)
    (tasks : List A2aTaskRecord) : Prop where
  mem : ∀ task, task ∈ tasks ↔ (∃ taskId : String, m.tasks[taskId]? = some task) ∧ Matches principal request task
  nodup : tasks.Nodup
  sorted : tasks.Pairwise PageBefore

/-- The request for a page. -/
def A2aListTasksRequest.page (request : A2aListTasksRequest) (pageToken : Option String) (pageSize : Option Nat) :
    A2aListTasksRequest := { request with pageToken, pageSize }

namespace A2aMapper

variable {m : A2aMapper} {principal : ProtocolPrincipal} {request : A2aListTasksRequest}

theorem pageOrder_iff {a b : A2aTaskRecord} : pageOrder a b = true ↔ PageBefore a b ∨
    (a.updatedRevision = b.updatedRevision ∧ a.mapping.taskId = b.mapping.taskId) := by
  unfold pageOrder PageBefore
  rw [Bool.or_eq_true, Bool.and_eq_true, decide_eq_true_eq, decide_eq_true_eq, Bool.not_eq_true',
    decide_eq_false_iff_not, not_lt, le_iff_lt_or_eq]
  constructor
  · rintro (hlater | ⟨hsame, hid | hid⟩)
    · exact .inl (.inl hlater)
    · exact .inl (.inr ⟨hsame, hid⟩)
    · exact .inr ⟨hsame, hid.symm⟩
  · rintro ((hlater | ⟨hsame, hid⟩) | ⟨hsame, hid⟩)
    · exact .inl hlater
    · exact .inr ⟨hsame, .inl hid⟩
    · exact .inr ⟨hsame, .inr hid.symm⟩

theorem pageOrder_trans (a b c : A2aTaskRecord) (hab : pageOrder a b = true) (hbc : pageOrder b c = true) :
    pageOrder a c = true := by
  rw [pageOrder_iff] at hab hbc ⊢
  unfold PageBefore at hab hbc ⊢
  rcases hab with (hlt | ⟨hrev, hid⟩) | ⟨hrev, hid⟩ <;> rcases hbc with (hlt' | ⟨hrev', hid'⟩) | ⟨hrev', hid'⟩
  · exact .inl (.inl (Nat.lt_trans hlt' hlt))
  · exact .inl (.inl (hrev' ▸ hlt))
  · exact .inl (.inl (hrev' ▸ hlt))
  · exact .inl (.inl (hrev ▸ hlt'))
  · exact .inl (.inr ⟨hrev.trans hrev', lt_trans hid' hid⟩)
  · exact .inl (.inr ⟨hrev.trans hrev', hid' ▸ hid⟩)
  · exact .inl (.inl (hrev ▸ hlt'))
  · exact .inl (.inr ⟨hrev.trans hrev', hid ▸ hid'⟩)
  · exact .inr ⟨hrev.trans hrev', hid.trans hid'⟩

theorem pageOrder_total (a b : A2aTaskRecord) : (pageOrder a b || pageOrder b a) = true := by
  rw [Bool.or_eq_true, pageOrder_iff, pageOrder_iff]
  unfold PageBefore
  rcases lt_trichotomy a.updatedRevision b.updatedRevision with hlt | hrev | hlt
  · exact .inr (.inl (.inl hlt))
  · rcases lt_trichotomy a.mapping.taskId b.mapping.taskId with hid | hid | hid
    · exact .inr (.inl (.inr ⟨hrev.symm, hid⟩))
    · exact .inl (.inr ⟨hrev, hid⟩)
    · exact .inl (.inl (.inr ⟨hrev, hid⟩))
  · exact .inl (.inl (.inl hlt))

variable {task : A2aTaskRecord}

theorem mem_listedTasks : task ∈ m.listedTasks request principal ↔
    (∃ taskId : String, m.tasks[taskId]? = some task) ∧ Matches principal request task := by
  unfold listedTasks
  dsimp only
  rw [(List.mergeSort_perm _ _).mem_iff, List.mem_filter, List.mem_filter, BTreeMap.mem_values, A2aContextOwner.admits_iff,
    Bool.and_eq_true, Bool.and_eq_true, Option.all_eq_true, Option.all_eq_true, Option.all_eq_true]
  constructor
  · rintro ⟨⟨hstored, howner⟩, ⟨hcontext, hstatus⟩, htimestamp⟩
    refine ⟨hstored, howner, fun contextId hsome => of_decide_eq_true (hcontext contextId hsome),
      fun status hsome => of_decide_eq_true (hstatus status hsome), fun after hsome => ?_⟩
    obtain ⟨timestamp, hget, hle⟩ := (Option.any_eq_true _ _).mp (htimestamp after hsome)
    exact ⟨timestamp, hget, of_decide_eq_true hle⟩
  · rintro ⟨hstored, howner, hcontext, hstatus, htimestamp⟩
    refine ⟨⟨hstored, howner⟩, ⟨fun contextId hsome => decide_eq_true (hcontext contextId hsome),
      fun status hsome => decide_eq_true (hstatus status hsome)⟩, fun after hsome => ?_⟩
    obtain ⟨timestamp, hget, hle⟩ := htimestamp after hsome
    exact (Option.any_eq_true _ _).mpr ⟨timestamp, hget, decide_eq_true hle⟩

theorem nodup_values (tasks : BTreeMap A2aTaskRecord)
    (h : ∀ (taskId : String) (task : A2aTaskRecord), tasks[taskId]? = some task → task.mapping.taskId = taskId) :
    tasks.values.Nodup := by
  have hkeys : (tasks.toList.map Prod.fst).Nodup := by
    rw [Std.ExtTreeMap.map_fst_toList_eq_keys]
    exact Std.ExtTreeMap.nodup_keys
  have hids : tasks.toList.map Prod.fst = tasks.values.map (·.mapping.taskId) := by
    unfold BTreeMap.values
    rw [List.map_map]
    exact List.map_congr_left fun entry hmem => (h entry.1 entry.2 (BTreeMap.mem_toList.mp hmem)).symm
  rw [hids] at hkeys
  exact hkeys.of_map _

/-- The tasks that are listed are those that the request asks for. -/
theorem listing_listedTasks [Digest] (hwell : WellKept m) (request : A2aListTasksRequest)
    (principal : ProtocolPrincipal) : Listing m principal request (m.listedTasks request principal) := by
  have hids : ∀ (taskId : String) (task : A2aTaskRecord), m.tasks[taskId]? = some task → task.mapping.taskId = taskId :=
    fun taskId task hget => (hwell.tasks taskId task hget).mapping
  have hnodup : (m.listedTasks request principal).Nodup := by
    unfold listedTasks
    dsimp only
    rw [(List.mergeSort_perm _ _).nodup_iff]
    exact ((nodup_values m.tasks hids).filter _).filter _
  refine ⟨fun _ => mem_listedTasks, hnodup, ?_⟩
  have hsorted : (m.listedTasks request principal).Pairwise fun a b => pageOrder a b = true :=
    List.pairwise_mergeSort pageOrder_trans pageOrder_total _
  refine (hnodup.and hsorted).imp_of_mem fun {a b} ha hb hab => ?_
  rcases pageOrder_iff.mp hab.2 with hbefore | ⟨-, hid⟩
  · exact hbefore
  · obtain ⟨taskId, hget⟩ := (mem_listedTasks.mp ha).1
    obtain ⟨taskId', hget'⟩ := (mem_listedTasks.mp hb).1
    rw [hids taskId a hget, hids taskId' b hget'] at hid
    rw [hid, hget', Option.some.injEq] at hget
    exact absurd hget.symm hab.1

/-- The ids of what is listed are distinct, and names. -/
theorem listed_ids [Digest] (hwell : WellKept m) (hkept : Kept m) (request : A2aListTasksRequest)
    (principal : ProtocolPrincipal) :
    ((m.listedTasks request principal).map (·.mapping.taskId)).Nodup ∧
      ∀ task ∈ m.listedTasks request principal, IsName task.mapping.taskId := by
  have hids : ∀ task ∈ m.listedTasks request principal, m.tasks[task.mapping.taskId]? = some task := by
    intro task hmem
    obtain ⟨taskId, hget⟩ := (mem_listedTasks.mp hmem).1
    rw [(hwell.tasks taskId task hget).mapping]
    exact hget
  constructor
  · refine List.Nodup.map_on (fun a ha b hb hid => ?_) (listing_listedTasks hwell request principal).nodup
    have hget := hids a ha
    rw [show a.mapping.taskId = b.mapping.taskId from hid, hids b hb, Option.some.injEq] at hget
    exact hget.symm
  · intro task hmem
    obtain ⟨n, hn, hid⟩ := hkept.taskIds _ _ (hids task hmem)
    rw [hid]
    exact isName_taskId hn

/-! ### A codec -/

/-- The bytes of a cursor are of that cursor alone. -/
theorem A2aPageCursor.toVec_inj {cursor cursor' : A2aPageCursor} (h : cursor.toVec = cursor'.toVec) :
    cursor = cursor' := by
  have htext := utf8_inj h
  simp only [List.map_cons, List.map_nil, commaSeparated, List.append_assoc, List.cons_append,
    List.cons.injEq, true_and, List.append_cancel_left_eq] at htext
  have hends (rest : List Char) : EndsRun NumberChar (',' :: rest) := endsRun_cons.mpr (by decide)
  obtain ⟨hversion, htext⟩ := jsonNumber_delimited (n := .posInt cursor.schemaVersion)
    (k := .posInt cursor'.schemaVersion) trivial trivial _ _ (hends _) (hends _) htext
  simp only [List.cons.injEq, true_and, List.append_cancel_left_eq] at htext
  obtain ⟨hsnapshot, htext⟩ := jsonString_delimited _ _ _ _ trivial trivial htext
  simp only [List.cons.injEq, true_and, List.append_cancel_left_eq] at htext
  obtain ⟨hquery, htext⟩ := jsonString_delimited _ _ _ _ trivial trivial htext
  simp only [List.cons.injEq, true_and, List.append_cancel_left_eq] at htext
  obtain ⟨htask, -⟩ := jsonString_delimited _ _ _ _ trivial trivial htext
  rw [Number.posInt.injEq] at hversion
  cases cursor
  cases cursor'
  rw [A2aPageCursor.mk.injEq]
  exact ⟨hversion, hsnapshot, hquery, htask⟩

open Classical in
/-- URL-safe base64 without padding, and a reader that takes what a cursor is written as to the cursor. -/
@[reducible] noncomputable def base64Codec : PageCodec where
  encode bytes := String.ofList (Base64.encode bytes)
  decode text := Base64.decode text.toList
  fromSlice bytes := if h : ∃ cursor : A2aPageCursor, cursor.toVec = bytes then some h.choose else none

theorem lawful_base64Codec : @PageCodec.Lawful base64Codec := by
  refine @PageCodec.Lawful.mk base64Codec (fun bytes => ?_) (fun bytes => ?_) (fun cursor _ => ?_)
  · show Base64.decode (String.ofList _).toList = _
    rw [String.toList_ofList, Base64.decode_encode]
  · have hsize : charBytes (Base64.encode bytes) = (Base64.encode bytes).length := by
      unfold Base64.encode
      have hlt := Base64.digits_lt bytes
      generalize Base64.digits bytes = digits at hlt
      induction digits with
      | nil => rfl
      | cons digit digits ih =>
        rw [List.map_cons, charBytes_cons, Base64.utf8Size_charOf digit (hlt digit List.mem_cons_self),
          ih fun other hmem => hlt other (List.mem_cons_of_mem _ hmem), List.length_cons, Nat.add_comm]
    exact hsize.trans (Base64.length_encode bytes)
  · have hexists : ∃ cursor' : A2aPageCursor, cursor'.toVec = cursor.toVec := ⟨cursor, rfl⟩
    exact (dif_pos hexists).trans (congrArg some (A2aPageCursor.toVec_inj hexists.choose_spec))

/-! ### Pages -/

/-- The request is answered with this page. -/
def Answers [Digest] [PageCodec] (m : A2aMapper) (principal : ProtocolPrincipal) (correlation : CorrelationIdentity)
    (request : A2aListTasksRequest) (page : A2aTaskPage) : Prop :=
  (m.prepareListTasks request correlation (some principal)).action = some (.listTasks page)

/-- The place of a task among tasks with distinct ids. -/
theorem findIdx?_taskId {tasks : List A2aTaskRecord} {i : Nat}
    (hnodup : (tasks.map (·.mapping.taskId)).Nodup) (hget : tasks[i]? = some task) :
    tasks.findIdx? (·.mapping.taskId = task.mapping.taskId) = some i := by
  obtain ⟨hlt, rfl⟩ := List.getElem?_eq_some_iff.mp hget
  refine List.findIdx?_eq_some_iff_getElem.mpr ⟨hlt, decide_eq_true rfl, fun j hj hsame => ?_⟩
  have hlt' : j < (tasks.map (·.mapping.taskId)).length := by
    rw [List.length_map]
    exact hj.trans hlt
  have hids : (tasks.map (·.mapping.taskId))[j]? = (tasks.map (·.mapping.taskId))[i]? := by
    rw [List.getElem?_map, List.getElem?_map, hget, List.getElem?_eq_getElem (hj.trans hlt)]
    exact congrArg some (of_decide_eq_true hsame)
  exact absurd ((List.getElem?_inj hlt' hnodup).mp hids) (Nat.ne_of_lt hj)

section Pages

variable [Digest] [PageCodec] {correlation : CorrelationIdentity} {pageToken : Option String} {pageSize : Option Nat}
  {page : A2aTaskPage}

theorem answers_iff : Answers m principal correlation request page ↔
    (GovernanceEnvelope.evaluate correlation (some principal) "tasks/list" (request.tenant.getD "tasks")
        (scopes [taskReadScope])).authorization.isAllowed = true ∧
      request.validate = .ok () ∧ (∀ tenant, request.tenant = some tenant → principal.tenantId = some tenant) ∧
      pageOf (m.listedTasks request principal) request principal = .ok page := by
  unfold Answers prepareListTasks
  dsimp only
  split
  · next hallowed =>
    cases hvalid : request.validate with
    | error error => simp [GovernedAction.denied]
    | ok _ =>
      dsimp only
      split
      · next htenant =>
        obtain ⟨tenant, hsome, hne⟩ := (Option.any_eq_true _ _).mp htenant
        exact ⟨fun h => (by cases h), fun h => absurd (h.2.2.1 tenant hsome) (of_decide_eq_true hne)⟩
      · next htenant =>
        have hsame : ∀ tenant, request.tenant = some tenant → principal.tenantId = some tenant := by
          intro tenant hsome
          by_contra hne
          exact htenant ((Option.any_eq_true _ _).mpr ⟨tenant, hsome, decide_eq_true hne⟩)
        cases hpage : pageOf (m.listedTasks request principal) request principal with
        | error error => simp [GovernedAction.denied]
        | ok found =>
          dsimp only
          rw [GovernedAction.fromEnvelope, if_pos hallowed, Option.some.injEq, A2aAction.listTasks.injEq]
          exact ⟨fun h => ⟨hallowed, rfl, hsame, congrArg _ h⟩, fun h => Except.ok.inj h.2.2.2⟩
  · next hdenied => exact ⟨fun h => (by cases h), fun h => absurd h.1 hdenied⟩

omit [Digest] in
/-- A request with a token is checked as one without, and the token is decoded. -/
theorem validate_page : (request.page pageToken pageSize).validate = .ok () ↔
    (request.page none pageSize).validate = .ok () ∧
      ∀ token, pageToken = some token → token ≠ "" → ∃ cursor, decodePageToken token = .ok cursor := by
  simp only [A2aListTasksRequest.validate, A2aListTasksRequest.page, bind_eq_ok, exists_unit, firstRefusal_eq_ok,
    Option.mem_toList, Option.filter_eq_some_iff, Option.filter_none, reduceCtorEq, false_imp_iff,
    forall_true_iff, and_true, decide_eq_true_eq, map_eq_ok]
  constructor
  · rintro ⟨htenant, hcontext, hsize, htoken⟩
    exact ⟨⟨htenant, hcontext, hsize⟩, fun token hsome hne => htoken token ⟨hsome, hne⟩⟩
  · rintro ⟨⟨htenant, hcontext, hsize⟩, htoken⟩
    exact ⟨htenant, hcontext, hsize, fun token hsome => htoken token hsome.1 hsome.2⟩

/-- The request would be answered without a token. -/
def Grants (m : A2aMapper) (principal : ProtocolPrincipal) (correlation : CorrelationIdentity)
    (request : A2aListTasksRequest) (pageSize : Option Nat) : Prop :=
  ∃ page, Answers m principal correlation (request.page none pageSize) page

/-- The page of some tasks that starts at a place. -/
def pageFrom (tasks : List A2aTaskRecord) (snapshotHash queryHash : String) (start pageSize : Nat) : A2aTaskPage :=
  let stop := min (start + pageSize) tasks.length
  ⟨(tasks.take stop).drop start, (tasks[stop]?.map fun task =>
    encodePageToken task.mapping.taskId snapshotHash queryHash).getD "", pageSize, tasks.length⟩

/-- Where a token leads to, in what is listed for a request. -/
def startOf (m : A2aMapper) (principal : ProtocolPrincipal) (request : A2aListTasksRequest)
    (pageToken : Option String) : ProtocolResult Nat :=
  pageStart (m.listedTasks request principal) (listSnapshotHash (m.listedTasks request principal))
    (listQueryHash principal request) pageToken

omit [Digest] in
/-- A token that leads somewhere is decoded. -/
theorem decoded_of_pageStart {tasks : List A2aTaskRecord} {snapshotHash queryHash : String} {start : Nat}
    (h : pageStart tasks snapshotHash queryHash pageToken = .ok start) :
    ∀ token, pageToken = some token → token ≠ "" → ∃ cursor, decodePageToken token = .ok cursor := by
  rintro token rfl hne
  unfold pageStart at h
  rw [Option.filter_some, if_pos (decide_eq_true hne)] at h
  simp only [bind_eq_ok] at h
  obtain ⟨cursor, hcursor, -⟩ := h
  exact ⟨cursor, hcursor⟩

/-- A request that would be answered is answered with the page that its token leads to. -/
theorem answers_page (hgrants : Grants m principal correlation request pageSize) :
    Answers m principal correlation (request.page pageToken pageSize) page ↔
      ∃ start, startOf m principal request pageToken = .ok start ∧
        page = pageFrom (m.listedTasks request principal) (listSnapshotHash (m.listedTasks request principal))
          (listQueryHash principal request) start (pageSize.getD 50) := by
  obtain ⟨first, hfirst⟩ := hgrants
  obtain ⟨hallowed, hvalid, htenant, -⟩ := answers_iff.mp hfirst
  rw [answers_iff, validate_page]
  have hpage : pageOf (m.listedTasks (request.page pageToken pageSize) principal) (request.page pageToken pageSize)
      principal = .ok page ↔ ∃ start, startOf m principal request pageToken = .ok start ∧
        page = pageFrom (m.listedTasks request principal) (listSnapshotHash (m.listedTasks request principal))
          (listQueryHash principal request) start (pageSize.getD 50) := by
    unfold pageOf
    simp only [bind_eq_ok, pure, Except.pure, Except.ok.injEq]
    exact exists_congr fun start => and_congr_right fun _ => eq_comm
  constructor
  · rintro ⟨-, -, -, hanswer⟩
    exact hpage.mp hanswer
  · intro hanswer
    refine ⟨hallowed, ⟨hvalid, ?_⟩, htenant, hpage.mpr hanswer⟩
    obtain ⟨start, hstart, -⟩ := hanswer
    exact decoded_of_pageStart hstart

/-- The pages of a request, from one token on, page by page. -/
def pagesFrom (m : A2aMapper) (principal : ProtocolPrincipal) (request : A2aListTasksRequest)
    (correlations : Nat → CorrelationIdentity) (sizes : Nat → Option Nat) :
    (fuel : Nat) → (i : Nat) → Option String → Option (List A2aTaskPage)
  | 0, _, _ => none
  | fuel + 1, i, pageToken =>
    match (m.prepareListTasks (request.page pageToken (sizes i)) (correlations i) (some principal)).action with
    | some (.listTasks page) =>
      if page.nextPageToken = "" then some [page]
      else (pagesFrom m principal request correlations sizes fuel (i + 1) (some page.nextPageToken)).map (page :: ·)
    | _ => none

/-- Following the tokens comes to an end and lists every task that the request asks for once, in order, and every
page tells how many they are. -/
def ListsAll (m : A2aMapper) (principal : ProtocolPrincipal) (request : A2aListTasksRequest) : Prop :=
  ∀ (correlations : Nat → CorrelationIdentity) (sizes : Nat → Option Nat) (first : Option String),
    first.filter (· ≠ "") = none → (∀ i, Grants m principal (correlations i) request (sizes i)) →
    ∃ fuel pages, pagesFrom m principal request correlations sizes fuel 0 first = some pages ∧
      Listing m principal request (pages.flatMap (·.tasks)) ∧
      ∀ page ∈ pages, page.totalSize = (pages.flatMap (·.tasks)).length

/-- A page that is answered has room for a task. -/
theorem Grants.size_pos (hgrants : Grants m principal correlation request pageSize) : 0 < pageSize.getD 50 := by
  obtain ⟨page, hanswer⟩ := hgrants
  have hvalid := (answers_iff.mp hanswer).2.1
  simp only [A2aListTasksRequest.validate, bind_eq_ok, exists_unit, refuseIf_eq_ok] at hvalid
  obtain ⟨-, -, hsize, -⟩ := hvalid
  dsimp only [A2aListTasksRequest.page] at hsize
  cases pageSize with
  | none => decide
  | some size =>
    rw [Option.any_some, Bool.or_eq_true, decide_eq_true_eq, decide_eq_true_eq] at hsize
    rw [Option.getD_some]
    omega

/-- A token names the task that comes after the page. -/
theorem nextPageToken_of_answers (hanswer : Answers m principal correlation request page)
    (hmore : page.nextPageToken ≠ "") :
    ∃ (stop : Nat) (task : A2aTaskRecord), (m.listedTasks request principal)[stop]? = some task ∧
      page.nextPageToken = encodePageToken task.mapping.taskId
        (listSnapshotHash (m.listedTasks request principal)) (listQueryHash principal request) := by
  have hpage := (answers_iff.mp hanswer).2.2.2
  simp only [pageOf, bind_eq_ok, pure, Except.pure, Except.ok.injEq] at hpage
  obtain ⟨start, -, rfl⟩ := hpage
  dsimp only at hmore ⊢
  cases hnext : (m.listedTasks request principal)[min (start + request.pageSize.getD 50)
      (m.listedTasks request principal).length]? with
  | none =>
    rw [hnext] at hmore
    exact absurd rfl hmore
  | some task => exact ⟨_, task, hnext, rfl⟩

theorem pagesFrom_succ {correlations : Nat → CorrelationIdentity} {sizes : Nat → Option Nat} {i : Nat}
    (hanswer : Answers m principal (correlations i) (request.page pageToken (sizes i)) page) (fuel : Nat) :
    pagesFrom m principal request correlations sizes (fuel + 1) i pageToken =
      if page.nextPageToken = "" then some [page]
      else (pagesFrom m principal request correlations sizes fuel (i + 1) (some page.nextPageToken)).map (page :: ·) := by
  unfold Answers at hanswer
  rw [pagesFrom, hanswer]

section Names

variable (hcodec : PageCodec.Lawful) (hnames : ∀ value : Value, IsName (stableInputHash value))
include hcodec hnames

/-- A token leads to the task that it names, if it was made for the same tasks and the same query. -/
theorem startOf_encode {tasks : List A2aTaskRecord} {principal' : ProtocolPrincipal} {request' : A2aListTasksRequest}
    {taskId : String} (htask : IsName taskId) {start : Nat} :
    startOf m principal request (some (encodePageToken taskId (listSnapshotHash tasks)
        (listQueryHash principal' request'))) = .ok start ↔
      listSnapshotHash tasks = listSnapshotHash (m.listedTasks request principal) ∧
        listQueryHash principal' request' = listQueryHash principal request ∧
        (m.listedTasks request principal).findIdx? (·.mapping.taskId = taskId) = some start := by
  obtain ⟨hne, hdecode⟩ := decodePageToken_encode hcodec (hnames (snapshotJson tasks)) (hnames (queryJson principal' request'))
    htask
  rw [← listSnapshotHash_eq, ← listQueryHash_eq] at hne hdecode
  unfold startOf pageStart
  rw [Option.filter_some, if_pos (decide_eq_true hne)]
  simp only [hdecode, ok_bind, bind_eq_ok, refuseIf_eq_ok, exists_unit, not_not, okOr_eq_ok]

/-- A first page that leaves some tasks out has a token. -/
theorem token_of_more (hwell : WellKept m) (hkept : Kept m) (hgrants : Grants m principal correlation request pageSize)
    (hmore : pageSize.getD 50 < (m.listedTasks request principal).length) :
    ∃ page, Answers m principal correlation (request.page none pageSize) page ∧ page.nextPageToken ≠ "" := by
  obtain ⟨-, hids⟩ := listed_ids hwell hkept request principal
  refine ⟨_, (answers_page hgrants).mpr ⟨0, rfl, rfl⟩, ?_⟩
  have htask := hids _ (List.getElem_mem hmore)
  dsimp only [pageFrom]
  rw [Nat.zero_add, Nat.min_eq_left hmore.le, List.getElem?_eq_getElem hmore, Option.map_some, Option.getD_some]
  exact (decodePageToken_encode hcodec (hnames _) (hnames _) htask).1

/-- From any place on, following the tokens lists the rest. -/
theorem pagesFrom_lists (hwell : WellKept m) (hkept : Kept m) {correlations : Nat → CorrelationIdentity}
    {sizes : Nat → Option Nat} (hgrants : ∀ i, Grants m principal (correlations i) request (sizes i)) {start : Nat}
    (hle : start ≤ (m.listedTasks request principal).length) (i : Nat)
    (hstart : startOf m principal request pageToken = .ok start) :
    ∃ fuel pages, pagesFrom m principal request correlations sizes fuel i pageToken = some pages ∧
      pages.flatMap (·.tasks) = (m.listedTasks request principal).drop start ∧
      ∀ page ∈ pages, page.totalSize = (m.listedTasks request principal).length := by
  -- Every page that is not the last leaves fewer tasks.
  induction hleft : (m.listedTasks request principal).length - start using Nat.strong_induction_on
    generalizing start i pageToken with
  | _ left ih =>
  have hanswer : Answers m principal (correlations i) (request.page pageToken (sizes i)) _ :=
    (answers_page (hgrants i)).mpr ⟨start, hstart, rfl⟩
  have hpos := (hgrants i).size_pos
  obtain ⟨hnodup, hids⟩ := listed_ids hwell hkept request principal
  generalize htasks : m.listedTasks request principal = tasks at *
  generalize hpage : pageFrom tasks (listSnapshotHash tasks) (listQueryHash principal request) start
    ((sizes i).getD 50) = page at hanswer
  obtain ⟨stop, hstop⟩ : ∃ stop, stop = min (start + (sizes i).getD 50) tasks.length := ⟨_, rfl⟩
  have hlisted : page.tasks = (tasks.take stop).drop start := by rw [← hpage, pageFrom, hstop]
  have htotal : page.totalSize = tasks.length := by rw [← hpage, pageFrom]
  have htoken : page.nextPageToken = (tasks[stop]?.map fun task =>
      encodePageToken task.mapping.taskId (listSnapshotHash tasks) (listQueryHash principal request)).getD "" := by
    rw [← hpage, pageFrom, hstop]
  cases hnext : tasks[stop]? with
  | none =>
    rw [hnext, Option.map_none, Option.getD_none] at htoken
    have hlast : tasks.length ≤ stop := List.getElem?_eq_none_iff.mp hnext
    refine ⟨1, [page], ?_, ?_, ?_⟩
    · rw [pagesFrom_succ hanswer, if_pos htoken]
    · rw [List.flatMap_singleton, hlisted, List.take_of_length_le hlast]
    · intro page' hmem
      rw [List.mem_singleton.mp hmem, htotal]
  | some task =>
    rw [hnext, Option.map_some, Option.getD_some] at htoken
    obtain ⟨hlt, hget⟩ := List.getElem?_eq_some_iff.mp hnext
    have hname := hids task (List.mem_of_getElem? hnext)
    have hfound : tasks.findIdx? (·.mapping.taskId = task.mapping.taskId) = some stop := findIdx?_taskId hnodup hnext
    have hstart' : startOf m principal request (some page.nextPageToken) = .ok stop := by
      rw [htoken]
      refine (startOf_encode hcodec hnames hname).mpr ⟨by rw [htasks], rfl, ?_⟩
      rw [htasks]
      exact hfound
    obtain ⟨fuel, pages, hpages, hrest, htotals⟩ := ih (tasks.length - stop) (by omega) hlt.le (i + 1) hstart' rfl
    have hne : page.nextPageToken ≠ "" := by
      rw [htoken]
      exact (decodePageToken_encode hcodec (hnames _) (hnames _) hname).1
    refine ⟨fuel + 1, page :: pages, ?_, ?_, ?_⟩
    · rw [pagesFrom_succ hanswer, if_neg hne, hpages, Option.map_some]
    · have hreached : start ≤ (tasks.take stop).length := by
        rw [List.length_take]
        omega
      rw [List.flatMap_cons, hlisted, hrest, ← List.drop_append_of_le_length hreached, List.take_append_drop]
    · intro page' hmem
      rcases List.mem_cons.mp hmem with rfl | hmem
      · exact htotal
      · exact htotals page' hmem

end Names

end Pages

/-- **Following the tokens of a request comes to an end, and lists every task of the principal that passes the filters
once, in order**: after every run, with any page sizes. -/
theorem listsAll [PageCodec] (hcodec : PageCodec.Lawful) (operations : List A2aOperation)
    (principal : ProtocolPrincipal) (request : A2aListTasksRequest) :
    let _ : Digest := sha256
    ListsAll (.afterRun operations) principal request := by
  intro _ correlations sizes first hfirst hgrants
  have hwell := wellKept_afterRun operations
  have hstart : startOf (.afterRun operations) principal request first = .ok 0 := by
    unfold startOf pageStart
    rw [hfirst]
  obtain ⟨fuel, pages, hpages, htasks, htotals⟩ := pagesFrom_lists hcodec isName_stableInputHash hwell
    (kept_afterRun operations) hgrants (Nat.zero_le _) 0 hstart
  rw [List.drop_zero] at htasks
  refine ⟨fuel, pages, hpages, ?_, ?_⟩
  · rw [htasks]
    exact listing_listedTasks hwell request principal
  · rw [htasks]
    exact htotals

/-! ### Two tasks -/

/-- A request for all tasks. -/
def everything : A2aListTasksRequest := ⟨none, none, none, none, none, none⟩

theorem grants_everything [Digest] [PageCodec] : Grants m writer crowdedRequest everything (some 1) :=
  ⟨_, answers_iff.mpr ⟨by decide +kernel, rfl, fun _ h => (by cases h), rfl⟩⟩

/-- Both words opened a task. -/
theorem length_everything :
    ((@afterRun sha256 [sendHello "m-1", sendHello "m-2"]).listedTasks everything writer).length = 2 := by
  unfold listedTasks
  dsimp only
  rw [(List.mergeSort_perm _ _).length_eq]
  exact (congrArg List.length (List.filter_eq_self.mpr fun _ _ => rfl)).trans afterRun_hellos.1

/-- Two tasks are listed on pages of one task. -/
theorem listsAll_everything :
    let _ : Digest := sha256
    let _ : PageCodec := base64Codec
    let m : A2aMapper := .afterRun [sendHello "m-1", sendHello "m-2"]
    (m.listedTasks everything writer).length = 2 ∧
      ∃ fuel pages, pagesFrom m writer everything (fun _ => crowdedRequest) (fun _ => some 1) fuel 0 none = some pages ∧
        Listing m writer everything (pages.flatMap (·.tasks)) ∧
        ∀ page ∈ pages, page.totalSize = (pages.flatMap (·.tasks)).length :=
  ⟨length_everything, @listsAll base64Codec lawful_base64Codec [sendHello "m-1", sendHello "m-2"] writer everything
    (fun _ => crowdedRequest) (fun _ => some 1) none rfl fun _ => @grants_everything _ sha256 base64Codec⟩

/-- A token that was made for a page in one state is accepted in another exactly where it was made for the same tasks
and the same query, unless hashes collide. -/
def TokensBound [Digest] [PageCodec] (m m' : A2aMapper) : Prop :=
  ∀ (principal principal' : ProtocolPrincipal) (request request' : A2aListTasksRequest)
    (correlation correlation' : CorrelationIdentity) (pageSize : Option Nat) (page : A2aTaskPage),
    Answers m principal correlation request page → page.nextPageToken ≠ "" →
    Grants m' principal' correlation' request' pageSize → QueriesApart principal principal' request request' →
    ListingsApart (m.listedTasks request principal) (m'.listedTasks request' principal') →
    ((∃ page', Answers m' principal' correlation' (request'.page (some page.nextPageToken) pageSize) page') ↔
      m.listedTasks request principal = m'.listedTasks request' principal' ∧
        SameQuery principal principal' request request')

/-- **A token is accepted exactly where it was made for the same tasks and the same query**, whatever was done before
it was made and before it is used. The query leaves out the lower bound of the time stamp. -/
theorem tokens_bound [PageCodec] (hcodec : PageCodec.Lawful) (operations operations' : List A2aOperation) :
    let _ : Digest := sha256
    TokensBound (.afterRun operations) (.afterRun operations') := by
  intro _ principal principal' request request' correlation correlation' pageSize page hmade hmore hgrants hqueries
    hlistings
  obtain ⟨hnodup, hids⟩ := listed_ids (wellKept_afterRun operations) (kept_afterRun operations) request principal
  obtain ⟨stop, task, hnext, htoken⟩ := nextPageToken_of_answers hmade hmore
  have hplace := @startOf_encode (afterRun operations') principal' request' sha256 _ hcodec isName_stableInputHash
    ((afterRun operations).listedTasks request principal) principal request _ (hids task (List.mem_of_getElem? hnext))
  rw [htoken]
  constructor
  · rintro ⟨page', hanswer⟩
    obtain ⟨start, hstart, -⟩ := (answers_page hgrants).mp hanswer
    obtain ⟨htasks, hquery, -⟩ := hplace.mp hstart
    exact ⟨(listSnapshotHash_eq_iff hlistings).mp htasks, (listQueryHash_eq_iff hqueries).mp hquery⟩
  · rintro ⟨htasks, hquery⟩
    refine ⟨_, (answers_page hgrants).mpr ⟨stop, hplace.mpr ⟨?_, ?_, ?_⟩, rfl⟩⟩
    · exact (listSnapshotHash_eq_iff hlistings).mpr htasks
    · exact (listQueryHash_eq_iff hqueries).mpr hquery
    · rw [← htasks]
      exact findIdx?_taskId hnodup hnext

/-- The token of the first of two pages leads to the second. -/
theorem tokens_bound_everything :
    let _ : Digest := sha256
    let _ : PageCodec := base64Codec
    let m : A2aMapper := .afterRun [sendHello "m-1", sendHello "m-2"]
    ∃ page, Answers m writer crowdedRequest (everything.page none (some 1)) page ∧ page.nextPageToken ≠ "" ∧
      ∃ page', Answers m writer crowdedRequest (everything.page (some page.nextPageToken) (some 1)) page' := by
  intro _ _ m
  have hgrants : Grants m writer crowdedRequest everything (some 1) := grants_everything
  obtain ⟨page, hanswer, hmore⟩ := token_of_more lawful_base64Codec isName_stableInputHash (wellKept_afterRun _)
    (kept_afterRun _) hgrants (by rw [length_everything]; decide)
  refine ⟨page, hanswer, hmore, ?_⟩
  have hbound := @tokens_bound base64Codec lawful_base64Codec [sendHello "m-1", sendHello "m-2"]
    [sendHello "m-1", sendHello "m-2"] writer writer (everything.page none (some 1)) everything crowdedRequest
    crowdedRequest (some 1) page hanswer hmore hgrants (fun hcollision => hcollision.1 rfl)
    (fun hcollision => hcollision.1 rfl)
  exact hbound.mpr ⟨rfl, ⟨rfl, rfl, rfl, rfl⟩⟩

end A2aMapper

end AikitRuntime.A2a
