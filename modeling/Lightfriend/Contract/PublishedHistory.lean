import Lightfriend.Contract.TrustChain

/-! # What the trust chain shows

Every proposal is shown once, newest first, but with the last activation of its
image and not with its own. The two agree exactly on histories in which no image
comes back after it was activated or dropped.
-/

namespace Lightfriend.Contract

/-! ## The logs of the contract -/

theorem prefixedHex_inj {a b : Bytes} : prefixedHex a = prefixedHex b ↔ a = b := by
  constructor
  · intro h
    have hparsed := congrArg parsePcrBytes h
    rwa [parsePcrBytes_prefixedHex, parsePcrBytes_prefixedHex, Option.some.injEq] at hparsed
  · exact congrArg prefixedHex

theorem imageIdText_inj {a b : Bytes32} : prefixedHex a.val = prefixedHex b.val ↔ a = b :=
  prefixedHex_inj.trans Subtype.ext_iff.symm

@[simp] theorem renderLog_matches {node : Node} {topic topic' : String} {t : Transaction}
    {index : Nat} {imageId : Bytes32} :
    (renderLog node topic t index imageId).matches topic' none = decide (topic = topic') := by
  simp [RpcLog.matches, renderLog, beq_eq_decide]

theorem renderLog_matches_image {node : Node} {topic : String} {t : Transaction} {index : Nat}
    {imageId other : Bytes32} :
    (renderLog node topic t index imageId).matches topic (some (prefixedHex other.val)) =
      decide (imageId = other) := by
  simp [RpcLog.matches, RpcLog.topic1, renderLog, beq_eq_decide, imageIdText_inj]

theorem activated_ne_proposed : imageActivatedTopic ≠ imageProposedTopic := by decide

section Logs

variable (node : Node) {e : Entry}

theorem logsOf_proposed (h : e.Emits) :
    (logsOf node e).filter (RpcLog.matches imageProposedTopic none) =
      (e.proposes.map (renderLog node imageProposedTopic e.transaction 0)).toList := by
  obtain ⟨next, hexecuted⟩ := h
  have hne := activated_ne_proposed
  unfold logsOf Entry.proposes
  generalize e.call = call at hexecuted ⊢
  generalize e.events = events at hexecuted ⊢
  cases hexecuted <;> simp [hne]

theorem logsOf_activated (h : e.Emits) :
    (logsOf node e).filter (RpcLog.matches imageActivatedTopic none) =
      (e.activates.map (renderLog node imageActivatedTopic e.transaction 0)).toList := by
  obtain ⟨next, hexecuted⟩ := h
  have hne := activated_ne_proposed.symm
  unfold logsOf Entry.activates
  generalize e.call = call at hexecuted ⊢
  generalize e.events = events at hexecuted ⊢
  cases hexecuted <;> simp [hne]

end Logs

section GetLogs

variable (node : Node)

/-- One entry more on top of a log. -/
theorem ethGetLogs_cons (topic : String) (id : Option String) (e : Entry) (log : List Entry) :
    ethGetLogs node (e :: log) topic id =
      ethGetLogs node log topic id ++ (logsOf node e).filter (RpcLog.matches topic id) := by
  simp [ethGetLogs]

theorem proposals_transactions (e : Entry) (log : List Entry) :
    (proposals (e :: log)).map (fun p => (p.imageId, p.transaction)) =
      (e.proposes.map (fun imageId => (imageId, e.transaction))).toList ++
        (proposals log).map (fun p => (p.imageId, p.transaction)) := by
  rw [proposals]
  cases e.proposes with
  | none => simp
  | some imageId => simp

theorem ethGetLogs_proposed {log : List Entry} (h : ∀ e ∈ log, e.Emits) :
    ethGetLogs node log imageProposedTopic none =
      ((proposals log).map (fun p =>
        renderLog node imageProposedTopic p.transaction 0 p.imageId)).reverse := by
  have hpairs : ∀ log : List Entry, (proposals log).map (fun p =>
      renderLog node imageProposedTopic p.transaction 0 p.imageId) =
        ((proposals log).map (fun p => (p.imageId, p.transaction))).map (fun pair =>
          renderLog node imageProposedTopic pair.2 0 pair.1) := by
    intro log
    rw [List.map_map]
    rfl
  rw [hpairs]
  induction log with
  | nil => rfl
  | cons e log ih =>
      rw [ethGetLogs_cons, ih (fun x hx => h x (List.mem_cons_of_mem _ hx)),
        logsOf_proposed node (h e List.mem_cons_self), proposals_transactions, List.map_append,
        List.reverse_append]
      cases e.proposes with
      | none => rfl
      | some imageId => rfl

theorem ethGetLogs_activated {log : List Entry} (h : ∀ e ∈ log, e.Emits) :
    ethGetLogs node log imageActivatedTopic none =
      ((activations log).map (fun a =>
        renderLog node imageActivatedTopic a.transaction 0 a.imageId)).reverse := by
  induction log with
  | nil => rfl
  | cons e log ih =>
      rw [ethGetLogs_cons, ih (fun x hx => h x (List.mem_cons_of_mem _ hx)),
        logsOf_activated node (h e List.mem_cons_self), activations, activations,
        List.filterMap_cons]
      cases e.activates with
      | none => simp
      | some imageId => simp

/-- A second topic narrows the answer. -/
theorem ethGetLogs_image (log : List Entry) (topic id : String) :
    ethGetLogs node log topic (some id) =
      (ethGetLogs node log topic none).filter (RpcLog.matches topic (some id)) := by
  unfold ethGetLogs
  rw [List.filter_filter]
  apply List.filter_congr
  intro l _
  simp only [RpcLog.matches, Option.all_none, Option.all_some, Bool.and_true]
  cases l.topics.any _ <;> simp

end GetLogs

/-- The logs of one image, out of logs about these images. -/
theorem filter_renderLog {α : Type} (node : Node) (topic : String) (xs : List α)
    (transaction : α → Transaction) (image : α → Bytes32) (imageId : Bytes32) :
    ((xs.map (fun x => renderLog node topic (transaction x) 0 (image x))).reverse).filter
        (RpcLog.matches topic (some (prefixedHex imageId.val))) =
      ((xs.filter (fun x => image x = imageId)).map
        (fun x => renderLog node topic (transaction x) 0 (image x))).reverse := by
  rw [List.filter_reverse, List.filter_map]
  congr 2
  apply List.filter_congr
  intro x _
  exact renderLog_matches_image

/-! ## The map of activations -/

/-- The last activation of an image. -/
def lastActivation (log : List Entry) (imageId : Bytes32) : Option Transaction :=
  ((activations log).find? (fun a => a.imageId = imageId)).map Activation.transaction

theorem activatedMap_render (world : TrustWorld) (node : Node) (acts : List Activation)
    (imageId : Bytes32) :
    ((activatedMap world ((acts.map (fun a =>
        renderLog node imageActivatedTopic a.transaction 0 a.imageId)).reverse)).lookup
          (prefixedHex imageId.val)).map ActivationEntry.tx =
      ((acts.find? (fun a => a.imageId = imageId)).map Activation.transaction).map
        (fun t => prefixedHex t.hash.val) := by
  unfold activatedMap
  rw [List.foldl_reverse]
  induction acts with
  | nil => rfl
  | cons a rest ih =>
      rw [List.map_cons, List.foldr_cons]
      by_cases himage : a.imageId = imageId
      · subst himage
        simp [renderLog, RpcLog.topic1]
      · have hne : (prefixedHex imageId.val == prefixedHex a.imageId.val) = false := by
          rw [beq_eq_false_iff_ne, ne_eq, imageIdText_inj]
          exact fun heq => himage heq.symm
        rw [List.find?_cons_of_neg (by simpa using himage), ← ih]
        simp [renderLog, RpcLog.topic1, List.lookup_cons, hne]

/-! ## The order of the builds -/

/-- Sorting turns around a list whose end comes strictly first. -/
theorem sortHistory_reverse {builds : List OrderedHistoricalBuild}
    (h : builds.Pairwise (fun a b => compareHistoryOrderDesc b.orderKey a.orderKey = .gt)) :
    sortHistory builds.reverse = builds := by
  unfold sortHistory orderBy
  induction builds using List.reverseRecOn with
  | nil => rfl
  | append_singleton rest last ih =>
      obtain ⟨hrest, _, hlast⟩ := List.pairwise_append.mp h
      rw [List.reverse_append, List.reverse_singleton, List.singleton_append,
        List.insertionSort_cons, ih hrest]
      have hinsert : ∀ xs : List OrderedHistoricalBuild,
          (∀ x ∈ xs, compareHistoryOrderDesc last.orderKey x.orderKey = .gt) →
            xs.orderedInsert (fun a b => compareHistoryOrderDesc a.orderKey b.orderKey ≠ .gt) last =
              xs ++ [last] := by
        intro xs
        induction xs with
        | nil => exact fun _ => rfl
        | cons x xs ih =>
            intro hxs
            rw [List.orderedInsert_cons, if_neg (not_not.mpr (hxs x List.mem_cons_self)),
              ih (fun y hy => hxs y (List.mem_cons_of_mem _ hy)), List.cons_append]
      exact hinsert rest (fun x hx => hlast x hx last (List.mem_singleton_self _))

theorem proposals_sublist (log : List Entry) :
    List.Sublist ((proposals log).map Proposal.transaction) (log.map Entry.transaction) := by
  induction log with
  | nil => exact List.Sublist.refl _
  | cons e log ih =>
      have hafter : ((proposals log).map (fun p => p.after e)).map Proposal.transaction =
          (proposals log).map Proposal.transaction := by
        simp
      rw [proposals, List.map_cons]
      cases e.proposes with
      | none =>
          simp only [hafter]
          exact ih.cons _
      | some imageId =>
          simp only [List.map_cons, hafter]
          exact ih.cons_cons _

/-- The place of a transaction comes before that of another. -/
def ComesBefore (older newer : Transaction) : Prop :=
  older.blockNumber < newer.blockNumber ∨
    older.blockNumber = newer.blockNumber ∧ older.logIndex < newer.logIndex

theorem compare_of_comesBefore {older newer : Transaction} (h : ComesBefore older newer)
    {a b : HistoryOrderKey} (ha : a.blockNumber = some older.blockNumber)
    (ha' : a.logIndex = some older.logIndex) (hb : b.blockNumber = some newer.blockNumber)
    (hb' : b.logIndex = some newer.logIndex) : compareHistoryOrderDesc a b = .gt := by
  unfold compareHistoryOrderDesc
  rw [ha, hb, ha', hb']
  rcases h with hblock | ⟨hblock, hindex⟩
  · simp only [Nat.compare_eq_gt.mpr hblock]
    rfl
  · simp only [hblock, Nat.compare_eq_eq.mpr, Option.getD_some, Nat.compare_eq_gt.mpr hindex]
    rfl

section Builds

variable (world : TrustWorld) (node : Node) (currentImageId : String)

/-- The build that a proposal is shown as. -/
def shownBuild (activated : List (String × ActivationEntry)) (p : Proposal) :
    OrderedHistoricalBuild :=
  buildOf world currentImageId activated
    (renderLog node imageProposedTopic p.transaction 0 p.imageId) (prefixedHex p.imageId.val)

theorem orderedBuild_render (activated : List (String × ActivationEntry)) (p : Proposal) :
    orderedBuild world currentImageId activated
        (renderLog node imageProposedTopic p.transaction 0 p.imageId) =
      some (shownBuild world node currentImageId activated p) := by
  have hnonempty : (prefixedHex p.imageId.val).isEmpty = false := by
    rw [Bool.eq_false_iff, ne_eq, String.isEmpty_iff]
    intro h
    have hlist := congrArg String.toList h
    simp [prefixedHex] at hlist
  simp [orderedBuild, renderLog, RpcLog.topic1, hnonempty, shownBuild]

/-- A build is ordered by the place of its proposal in the chain. -/
theorem shownBuild_orderKey (activated : List (String × ActivationEntry)) {p : Proposal}
    (hblock : p.transaction.blockNumber ≤ u64Max) (hindex : p.transaction.logIndex ≤ u64Max) :
    (shownBuild world node currentImageId activated p).orderKey.blockNumber =
        some p.transaction.blockNumber ∧
      (shownBuild world node currentImageId activated p).orderKey.logIndex =
        some p.transaction.logIndex := by
  simp only [shownBuild, buildOf, renderLog]
  exact ⟨u64FromHex_hexQuantity hblock, u64FromHex_hexQuantity hindex⟩

variable {log : List Entry}

/-- Every proposal is shown once, newest first. -/
theorem buildsFromLogs_eq (hemits : ∀ e ∈ log, e.Emits) (horder : InChainOrder log)
    (hserves : world.fetchEventLogs = ethGetLogs node log) :
    buildsFromLogs world currentImageId = (proposals log).map (fun p =>
      (shownBuild world node currentImageId (activatedMap world ((activations log).map (fun a =>
        renderLog node imageActivatedTopic a.transaction 0 a.imageId)).reverse) p).build) := by
  unfold buildsFromLogs
  simp only [hserves, ethGetLogs_proposed node hemits, ethGetLogs_activated node hemits]
  generalize activatedMap world _ = activated
  rw [List.filterMap_reverse, List.filterMap_map]
  have hall : (proposals log).filterMap (orderedBuild world currentImageId activated ∘
      fun p => renderLog node imageProposedTopic p.transaction 0 p.imageId) =
        (proposals log).map (shownBuild world node currentImageId activated) := by
    rw [← List.filterMap_eq_map]
    apply List.filterMap_congr
    intro p _
    exact orderedBuild_render world node currentImageId activated p
  rw [hall, sortHistory_reverse, List.map_map]
  · rfl
  · rw [List.pairwise_map]
    have hplaces : (log.map Entry.transaction).Pairwise (fun newer older =>
        ComesBefore older newer) := List.pairwise_map.mpr horder.1
    have hproposals := List.pairwise_map.mp (hplaces.sublist (proposals_sublist log))
    have hbound : ∀ p ∈ proposals log,
        p.transaction.blockNumber ≤ u64Max ∧ p.transaction.logIndex ≤ u64Max := by
      intro p hp
      have hmem := (proposals_sublist log).subset (List.mem_map_of_mem hp)
      obtain ⟨e, he, heq⟩ := List.mem_map.mp hmem
      rw [← heq]
      exact horder.2 e he
    apply hproposals.imp_of_mem
    intro newer older hnewer holder hbefore
    have hkey : ∀ p ∈ proposals log, _ := fun p hp =>
      shownBuild_orderKey world node currentImageId activated (hbound p hp).1 (hbound p hp).2
    exact compare_of_comesBefore hbefore (hkey older holder).1 (hkey older holder).2
      (hkey newer hnewer).1 (hkey newer hnewer).2

end Builds

/-! ## What is shown and what happened -/

/-- The activation of an activated proposal. -/
def Fate.activation : Fate → Option Transaction
  | .activated t => some t
  | _ => none

theorem Fate.activation_eq_some {fate : Fate} {t : Transaction} :
    fate.activation = some t ↔ fate = .activated t := by
  cases fate <;> simp [Fate.activation]

def transactionText (t : Transaction) : String := prefixedHex t.hash.val

theorem transactionText_inj {t u : Transaction} :
    transactionText t = transactionText u ↔ t.hash = u.hash :=
  imageIdText_inj

/-- The image, the proposing and the activating transaction of a build. -/
def HistoricalBuild.shown (build : HistoricalBuild) : String × String × Option String :=
  (build.imageId, build.proposeTx, build.activateTx)

def Proposal.told (p : Proposal) : String × String × Option String :=
  (prefixedHex p.imageId.val, transactionText p.transaction,
    p.fate.activation.map transactionText)

def proposalsOf (log : List Entry) (imageId : Bytes32) : List Proposal :=
  (proposals log).filter (fun p => p.imageId = imageId)

def activationsOf (log : List Entry) (imageId : Bytes32) : List Activation :=
  (activations log).filter (fun a => a.imageId = imageId)

/-- The last proposal of the image that was activated, and its activation. -/
def approving (log : List Entry) (imageId : Bytes32) : Option (Transaction × Transaction) :=
  (proposalsOf log imageId).findSome? (fun p => p.fate.activation.map (p.transaction, ·))

structure TellsHistory (world : TrustWorld) (cache : Option CachedEvents) (now : Nat)
    (currentImageId : String) (s : State) : Prop where
  builds : (getAllHistoricalBuilds world cache now currentImageId).1.map HistoricalBuild.shown =
    (proposals s.log).map Proposal.told
  current : ∀ imageId, s.contract.oysterKMSVerify imageId = true →
    ∃ proposed activated info, approving s.log imageId = some (proposed, activated) ∧
      fetchCurrentBlockchainInfo world (prefixedHex imageId.val) = some info ∧
        info.proposeTx = some (transactionText proposed) ∧
          info.activateTx = some (transactionText activated)

/-- An image that was ever activated was activated each time it was proposed, always in the same
transaction; and an approved one was first and last proposed in the same transaction. -/
structure JoinedByImage (s : State) : Prop where
  activated : ∀ p ∈ proposals s.log, ∀ a ∈ activations s.log, a.imageId = p.imageId →
    ∃ t, p.fate = .activated t ∧ t.hash = a.transaction.hash
  proposed : ∀ imageId, s.contract.oysterKMSVerify imageId = true → ∀ first last,
    (proposalsOf s.log imageId).getLast? = some first →
      (proposalsOf s.log imageId).head? = some last →
        first.transaction.hash = last.transaction.hash

theorem lastActivation_eq_head (log : List Entry) (imageId : Bytes32) :
    lastActivation log imageId = (activationsOf log imageId).head?.map Activation.transaction := by
  rw [lastActivation, activationsOf, List.head?_filter]

section Views

variable {world : TrustWorld} {node : Node} {s : State}

/-- A proposal is shown with its own activation just when that is the last one of its image. -/
theorem builds_iff {cache : Option CachedEvents} {now : Nat} {currentImageId : String}
    (hkept : Kept s.contract s.log) (horder : InChainOrder s.log)
    (hserves : world.fetchEventLogs = ethGetLogs node s.log)
    (hstale : ∀ cached, cache = some cached → cached.isFresh now = false) :
    (getAllHistoricalBuilds world cache now currentImageId).1.map HistoricalBuild.shown =
        (proposals s.log).map Proposal.told ↔
      ∀ p ∈ proposals s.log, (lastActivation s.log p.imageId).map Transaction.hash =
        p.fate.activation.map Transaction.hash := by
  have hmiss : cache.filter (fun cached => cached.isFresh now) = none := by
    cases cache with
    | none => rfl
    | some cached => simp [Option.filter, hstale cached rfl]
  have hbuilds : (getAllHistoricalBuilds world cache now currentImageId).1 =
      buildsFromLogs world currentImageId := by
    unfold getAllHistoricalBuilds
    rw [hmiss]
  rw [hbuilds, buildsFromLogs_eq world node currentImageId hkept.emitted horder hserves,
    List.map_map, List.map_inj_left]
  apply forall₂_congr
  intro p _
  have htx := activatedMap_render world node (activations s.log) p.imageId
  have hactivation : ∀ x y : Option Transaction,
      x.map transactionText = y.map transactionText ↔
        x.map Transaction.hash = y.map Transaction.hash := by
    intro x y
    cases x <;> cases y <;> simp [transactionText_inj]
  rw [← hactivation]
  simp only [Function.comp_apply, HistoricalBuild.shown, Proposal.told, shownBuild, buildOf,
    Prod.mk.injEq, true_and]
  rw [htx]
  exact and_iff_right rfl

/-- That an image is told rightly in all its builds. -/
theorem activated_iff (hkept : Kept s.contract s.log) :
    (∀ p ∈ proposals s.log, (lastActivation s.log p.imageId).map Transaction.hash =
        p.fate.activation.map Transaction.hash) ↔
      ∀ p ∈ proposals s.log, ∀ a ∈ activations s.log, a.imageId = p.imageId →
        ∃ t, p.fate = .activated t ∧ t.hash = a.transaction.hash := by
  constructor
  · intro h p hp a ha himage
    obtain ⟨q, hq, hq_image, hq_fate⟩ := hkept.activated a ha
    have hlast := h q hq
    rw [hq_fate, hq_image, himage, h p hp] at hlast
    obtain ⟨t, ht, hhash⟩ := Option.map_eq_some_iff.mp hlast
    exact ⟨t, Fate.activation_eq_some.1 ht, hhash⟩
  · intro h p hp
    rw [lastActivation_eq_head]
    cases hhead : (activationsOf s.log p.imageId).head? with
    | none =>
        cases hfate : p.fate.activation with
        | none => rfl
        | some t =>
            have hmem := hkept.activation p hp t (Fate.activation_eq_some.1 hfate)
            have hempty := List.head?_eq_none_iff.mp hhead
            exact absurd (List.mem_filter.mpr ⟨hmem, by simp⟩)
              (hempty ▸ List.not_mem_nil)
    | some a =>
        obtain ⟨ha, himage⟩ := List.mem_filter.mp (List.mem_of_head? hhead)
        obtain ⟨t, hfate, hhash⟩ := h p hp a ha (by simpa using himage)
        rw [hfate]
        exact congrArg some hhash.symm

/-- What is shown of an image are its first proposal and its first activation. -/
theorem fetchCurrent_first {imageId : Bytes32} (hkept : Kept s.contract s.log)
    (hserves : world.fetchEventLogs = ethGetLogs node s.log) {p : Proposal} {a : Activation}
    (hp : (proposalsOf s.log imageId).getLast? = some p)
    (ha : (activationsOf s.log imageId).getLast? = some a) :
    ∃ info, fetchCurrentBlockchainInfo world (prefixedHex imageId.val) = some info ∧
      info.proposeTx = some (transactionText p.transaction) ∧
        info.activateTx = some (transactionText a.transaction) := by
  have hproposed : (world.fetchEventLogs imageProposedTopic
      (some (prefixedHex imageId.val))).head? =
        some (renderLog node imageProposedTopic p.transaction 0 p.imageId) := by
    rw [hserves, ethGetLogs_image, ethGetLogs_proposed node hkept.emitted, filter_renderLog,
      List.head?_reverse, List.getLast?_map]
    exact congrArg _ hp
  have hactivated : (world.fetchEventLogs imageActivatedTopic
      (some (prefixedHex imageId.val))).head? =
        some (renderLog node imageActivatedTopic a.transaction 0 a.imageId) := by
    rw [hserves, ethGetLogs_image, ethGetLogs_activated node hkept.emitted, filter_renderLog,
      List.head?_reverse, List.getLast?_map]
    exact congrArg _ ha
  unfold fetchCurrentBlockchainInfo
  simp only [hproposed, hactivated]
  exact ⟨_, rfl, rfl, rfl⟩

/-- An approved image has been proposed, and activated. -/
theorem approved_exists (hkept : Kept s.contract s.log) {imageId : Bytes32}
    (h : s.contract.oysterKMSVerify imageId = true) :
    ∃ first last a, (proposalsOf s.log imageId).getLast? = some first ∧
      (proposalsOf s.log imageId).head? = some last ∧
        (activationsOf s.log imageId).getLast? = some a := by
  obtain ⟨a, ha, rfl⟩ := hkept.approved imageId h
  obtain ⟨p, hp, himage, _⟩ := hkept.activated a ha
  have hproposals : proposalsOf s.log a.imageId ≠ [] :=
    List.ne_nil_of_mem (List.mem_filter.mpr ⟨hp, by simpa using himage⟩)
  have hactivations : activationsOf s.log a.imageId ≠ [] :=
    List.ne_nil_of_mem (List.mem_filter.mpr ⟨ha, by simp⟩)
  exact ⟨_, _, _, List.getLast?_eq_some_getLast hproposals, List.head?_eq_some_head hproposals,
    List.getLast?_eq_some_getLast hactivations⟩

/-- Where the builds are told rightly, the view of an approved image is right when its first and
its last proposal are one transaction. -/
theorem current_iff (hkept : Kept s.contract s.log)
    (hserves : world.fetchEventLogs = ethGetLogs node s.log)
    (hactivated : ∀ p ∈ proposals s.log, ∀ a ∈ activations s.log, a.imageId = p.imageId →
      ∃ t, p.fate = .activated t ∧ t.hash = a.transaction.hash)
    {imageId : Bytes32} (happroved : s.contract.oysterKMSVerify imageId = true) :
    (∃ proposed activated info, approving s.log imageId = some (proposed, activated) ∧
        fetchCurrentBlockchainInfo world (prefixedHex imageId.val) = some info ∧
          info.proposeTx = some (transactionText proposed) ∧
            info.activateTx = some (transactionText activated)) ↔
      ∀ first last, (proposalsOf s.log imageId).getLast? = some first →
        (proposalsOf s.log imageId).head? = some last →
          first.transaction.hash = last.transaction.hash := by
  obtain ⟨first, last, a, hfirst, hlast, ha⟩ := approved_exists hkept happroved
  obtain ⟨hlast_mem, hlast_image⟩ := List.mem_filter.mp (List.mem_of_head? hlast)
  obtain ⟨ha_mem, ha_image⟩ := List.mem_filter.mp (List.mem_of_getLast? ha)
  simp only [decide_eq_true_eq] at hlast_image ha_image
  obtain ⟨t, hfate, hhash⟩ := hactivated last hlast_mem a ha_mem (ha_image.trans hlast_image.symm)
  have happroving : approving s.log imageId = some (last.transaction, t) := by
    unfold approving
    obtain ⟨rest, hrest⟩ := List.head?_eq_some_iff.mp hlast
    rw [hrest, List.findSome?_cons, hfate]
    rfl
  obtain ⟨info, hinfo, hpropose, hactivate⟩ := fetchCurrent_first hkept hserves hfirst ha
  constructor
  · rintro ⟨proposed, activated, info', happroving', hinfo', hpropose', _⟩ first' last' hfirst'
      hlast'
    cases hfirst.symm.trans hfirst'
    cases hlast.symm.trans hlast'
    cases happroving.symm.trans happroving'
    cases hinfo.symm.trans hinfo'
    exact transactionText_inj.1 (Option.some.inj (hpropose.symm.trans hpropose'))
  · intro h
    refine ⟨last.transaction, t, info, happroving, hinfo, ?_, ?_⟩
    · rw [hpropose, transactionText_inj.2 (h first last hfirst hlast)]
    · rw [hactivate, transactionText_inj.2 hhash]

theorem tellsHistory_iff {cache : Option CachedEvents} {now : Nat} {currentImageId : String}
    (hkept : Kept s.contract s.log) (horder : InChainOrder s.log)
    (hserves : world.fetchEventLogs = ethGetLogs node s.log)
    (hstale : ∀ cached, cache = some cached → cached.isFresh now = false) :
    TellsHistory world cache now currentImageId s ↔ JoinedByImage s := by
  constructor
  · intro h
    have hactivated := (activated_iff hkept).mp
      ((builds_iff hkept horder hserves hstale).mp h.builds)
    exact ⟨hactivated, fun imageId happroved =>
      (current_iff hkept hserves hactivated happroved).mp (h.current imageId happroved)⟩
  · intro h
    exact ⟨(builds_iff hkept horder hserves hstale).mpr ((activated_iff hkept).mpr h.activated),
      fun imageId happroved =>
        (current_iff hkept hserves h.activated happroved).mpr (h.proposed imageId happroved)⟩

end Views

/-- Over every history of calls, of which a node returns the logs completely and in order, the
trust chain tells the history exactly when the image id tells its proposals apart. -/
theorem trust_chain_tells_history {deployer : Address} {initialCooldownSeconds clock : Nat}
    {transactions : List Transaction} {s : State} {world : TrustWorld} {node : Node}
    {cache : Option CachedEvents} {now : Nat} {currentImageId : String}
    (hrun : Transition.run step (init deployer initialCooldownSeconds clock) transactions =
      some s)
    (horder : InChainOrder s.log) (hserves : world.fetchEventLogs = ethGetLogs node s.log)
    (hstale : ∀ cached, cache = some cached → cached.isFresh now = false) :
    TellsHistory world cache now currentImageId s ↔ JoinedByImage s :=
  tellsHistory_iff (kept_of_run hrun) horder hserves hstale

/-! ## An image that comes back -/

namespace TrustExample

def image : Bytes32 := ⟨List.replicate 32 (UInt8.ofNat 1), rfl⟩

def hash (n : UInt8) : Bytes32 := ⟨List.replicate 32 n, rfl⟩

def transaction (n : Nat) (call : Call) : Transaction :=
  ⟨7, 100 * n, call, hash (UInt8.ofNat n), n, 0⟩

/-- The image is proposed and activated. -/
def once : List Transaction :=
  [transaction 1 (.proposeImage image []), transaction 2 .activateImage]

/-- It is proposed once more, and that proposal is still pending. -/
def again : List Transaction := once ++ [transaction 3 (.proposeImage image [])]

def final (transactions : List Transaction) : State :=
  Transition.final step (init 7 100 0) transactions

def node : Node := ⟨fun _ => "0x", fun _ => none⟩

def world (log : List Entry) : TrustWorld where
  fetchEventLogs := ethGetLogs node log
  checkContractApproval := fun _ => some true
  fetchBlockTimestamp := fun _ => none
  toRfc3339 := fun _ => none

end TrustExample

open TrustExample in
theorem trust_chain_tells_history_once :
    (final once).contract.oysterKMSVerify image = true ∧
      TellsHistory (world (final once).log) none 0 (prefixedHex image.val) (final once) := by
  have hproposals : proposals (final once).log =
      [⟨image, transaction 1 (.proposeImage image []),
        .activated (transaction 2 .activateImage)⟩] := by decide
  have hactivations : activations (final once).log =
      [⟨image, transaction 2 .activateImage⟩] := by decide
  have hrun : Transition.run step (init 7 100 0) once = some (final once) :=
    Transition.run_eq_final (by decide)
  have hjoined : JoinedByImage (final once) := by
    constructor
    · intro p hp a ha _
      rw [hproposals, List.mem_singleton] at hp
      rw [hactivations, List.mem_singleton] at ha
      rw [hp, ha]
      exact ⟨_, rfl, rfl⟩
    · intro imageId _ first last hfirst hlast
      obtain ⟨hfirst, _⟩ := List.mem_filter.mp (List.mem_of_getLast? hfirst)
      obtain ⟨hlast, _⟩ := List.mem_filter.mp (List.mem_of_head? hlast)
      rw [hproposals, List.mem_singleton] at hfirst hlast
      rw [hfirst, hlast]
  have hserves : (world (final once).log).fetchEventLogs = ethGetLogs node (final once).log := rfl
  exact ⟨by decide, (trust_chain_tells_history hrun ⟨by decide, by decide⟩ hserves
    (fun cached h => by cases h)).mpr hjoined⟩

open TrustExample in
/-- The pending proposal is shown as activated by the activation of the first. -/
theorem pending_proposal_shown_activated :
    ¬ TellsHistory (world (final again).log) none 0 (prefixedHex image.val) (final again) := by
  have hkept : Kept (final again).contract (final again).log :=
    kept_of_run (Transition.run_eq_final (by decide))
  have hproposals : proposals (final again).log =
      [⟨image, transaction 3 (.proposeImage image []), .pending⟩,
        ⟨image, transaction 1 (.proposeImage image []),
          .activated (transaction 2 .activateImage)⟩] := by decide
  have hactivations : activations (final again).log =
      [⟨image, transaction 2 .activateImage⟩] := by decide
  have hserves : (world (final again).log).fetchEventLogs = ethGetLogs node (final again).log :=
    rfl
  rw [tellsHistory_iff hkept ⟨by decide, by decide⟩ hserves (fun cached h => by cases h)]
  intro hjoined
  obtain ⟨t, ht, _⟩ := hjoined.activated ⟨image, transaction 3 (.proposeImage image []), .pending⟩
    (by rw [hproposals]; exact List.mem_cons_self) ⟨image, transaction 2 .activateImage⟩
    (by rw [hactivations]; exact List.mem_cons_self) rfl
  cases ht

end Lightfriend.Contract
