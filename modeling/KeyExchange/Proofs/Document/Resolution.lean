import Mathlib.Data.Set.Card
import Mathlib.Logic.Relation
import KeyExchange.Document.Resolve
import KeyExchange.Proofs.Document.Lifecycle

/-!
# The key that is meant for a track

What a document says of a track is a set of ids: those of its keys that have a rule all
of whose filters are satisfied.  Whether a key is found, none or several depends on this
set alone, so it depends neither on any order nor on what is said twice, and rules for
missing keys count for nothing.

* `UsageFilter.Satisfied`: what a filter asks of a track, `matches_iff`: and that is what
  is checked;
* `Document.meant`: the ids of the keys that are meant for a track;
* `resolve_eq_ok_iff`, `resolve_eq_noMatchingKey_iff`, `resolve_eq_ambiguousKey_iff`: the
  set decides;
* `meant_filter_subset`, `subset_meant_rule`: fewer filters and more rules never make the
  set smaller;
* `Inquiry.Step`: one change of a document or of what is asked, `Step.answer_eq`: after
  which the answer is the same;
* `resolve_exact`: all of this.
-/

namespace KeyExchange

/-! ## Filters and rules -/

/-- The number lies between those ends that there are. -/
structure Bounds.Admits (b : Bounds) (n : UInt64) : Prop where
  least : ∀ m ∈ b.least, m.toNat ≤ n.toNat
  most : ∀ m ∈ b.most, n.toNat ≤ m.toNat

/-- What a filter asks of a track. -/
inductive UsageFilter.Satisfied (context : TrackContext) : UsageFilter → Prop
  | video {bounds : Bounds} {pixels : UInt64} (track : context.track = .video pixels)
      (within : bounds.Admits pixels) : Satisfied context (.video bounds)
  | audio {bounds : Bounds} {channels : UInt64} (track : context.track = .audio channels)
      (within : bounds.Admits channels) : Satisfied context (.audio bounds)
  | bitrate {bounds : Bounds} {rate : UInt64} (known : context.bitrate = some rate)
      (within : bounds.Admits rate) : Satisfied context (.bitrate bounds)
  | label {wanted : String} (listed : wanted ∈ context.labels) : Satisfied context (.label wanted)

/-- The track satisfies every filter of the rule. -/
def UsageRule.Applies (r : UsageRule) (context : TrackContext) : Prop :=
  ∀ f ∈ r.filters, f.Satisfied context

/-- Bounds are checked for both of their ends. -/
theorem Bounds.contains_iff {b : Bounds} {n : UInt64} : b.contains n = true ↔ b.Admits n := by
  have hends : b.contains n = true ↔ (∀ m ∈ b.least, m ≤ n) ∧ ∀ m ∈ b.most, n ≤ m := by
    rw [contains, Bool.and_eq_true, Option.all_eq_true, Option.all_eq_true]
    simp only [decide_eq_true_eq, Option.mem_def]
  rw [hends]
  exact ⟨fun h => ⟨h.1, h.2⟩, fun h => ⟨h.1, h.2⟩⟩

/-- A filter is checked for what it asks. -/
theorem UsageFilter.matches_iff {context : TrackContext} {f : UsageFilter} :
    f.matches context = true ↔ f.Satisfied context := by
  constructor
  · intro h
    cases f with
    | video bounds =>
        rw [UsageFilter.matches] at h
        cases htrack : context.track with
        | video pixels =>
            rw [htrack] at h
            exact .video htrack (Bounds.contains_iff.1 h)
        | audio channels =>
            rw [htrack] at h
            exact absurd h Bool.false_ne_true
    | audio bounds =>
        rw [UsageFilter.matches] at h
        cases htrack : context.track with
        | video pixels =>
            rw [htrack] at h
            exact absurd h Bool.false_ne_true
        | audio channels =>
            rw [htrack] at h
            exact .audio htrack (Bounds.contains_iff.1 h)
    | bitrate bounds =>
        rw [UsageFilter.matches, Option.any_eq_true] at h
        obtain ⟨rate, hknown, hwithin⟩ := h
        exact .bitrate hknown (Bounds.contains_iff.1 hwithin)
    | label wanted => exact .label (List.contains_iff_mem.1 h)
  · intro h
    cases h with
    | video htrack hwithin =>
        rw [UsageFilter.matches, htrack]
        exact Bounds.contains_iff.2 hwithin
    | audio htrack hwithin =>
        rw [UsageFilter.matches, htrack]
        exact Bounds.contains_iff.2 hwithin
    | bitrate hknown hwithin =>
        rw [UsageFilter.matches, hknown]
        exact Bounds.contains_iff.2 hwithin
    | label hlisted => exact List.contains_iff_mem.2 hlisted

/-- A rule is checked for all of its filters. -/
theorem UsageRule.matches_iff {context : TrackContext} {r : UsageRule} :
    r.matches context = true ↔ r.Applies context := by
  rw [UsageRule.matches, List.all_eq_true]
  exact forall₂_congr fun _ _ => UsageFilter.matches_iff

namespace Document

/-! ## The keys that are meant -/

/-- The ids of the keys that are meant for a track: they have a rule that applies. -/
def meant (d : Document) (context : TrackContext) : Set KeyId :=
  {id | id ∈ d.contentKeys.map ContentKey.id ∧
    ∃ r ∈ d.usageRules, r.keyId = id ∧ r.Applies context}

variable {d d' : Document} {context context' : TrackContext} {k : ContentKey}

/-- The rules for an id are those that name it. -/
theorem mem_rulesFor_iff {id : KeyId} {r : UsageRule} :
    r ∈ d.rulesFor id ↔ r ∈ d.usageRules ∧ r.keyId = id := by
  rw [rulesFor, List.mem_filter, beq_iff_eq]

/-- The keys that are counted are those that are meant. -/
theorem mem_matchingKeys_iff :
    k ∈ d.matchingKeys context ↔ k ∈ d.contentKeys ∧ k.id ∈ d.meant context := by
  rw [matchingKeys, List.mem_filter, List.any_eq_true]
  simp only [mem_rulesFor_iff, UsageRule.matches_iff]
  constructor
  · rintro ⟨hk, r, ⟨hr, hid⟩, happlies⟩
    exact ⟨hk, List.mem_map_of_mem hk, r, hr, hid, happlies⟩
  · rintro ⟨hk, -, r, hr, hid, happlies⟩
    exact ⟨hk, r, ⟨hr, hid⟩, happlies⟩

/-- An id is meant when a key with it is counted. -/
theorem mem_meant_iff {id : KeyId} :
    id ∈ d.meant context ↔ id ∈ (d.matchingKeys context).map ContentKey.id := by
  rw [List.mem_map]
  constructor
  · intro h
    obtain ⟨k, hk, rfl⟩ := List.mem_map.1 h.1
    exact ⟨k, mem_matchingKeys_iff.2 ⟨hk, h⟩, rfl⟩
  · rintro ⟨k, hk, rfl⟩
    exact (mem_matchingKeys_iff.1 hk).2

/-- Where each rule that applies has a like that does, no fewer keys are meant. -/
theorem meant_subset
    (hids : d.contentKeys.map ContentKey.id ⊆ d'.contentKeys.map ContentKey.id)
    (hrules : ∀ r ∈ d.usageRules, r.keyId ∈ d.contentKeys.map ContentKey.id →
      r.Applies context → ∃ r' ∈ d'.usageRules, r'.keyId = r.keyId ∧ r'.Applies context') :
    d.meant context ⊆ d'.meant context' := by
  rintro id ⟨hid, r, hr, rfl, happlies⟩
  obtain ⟨r', hr', heq, happlies'⟩ := hrules r hr hid happlies
  exact ⟨hids hid, r', hr', heq, happlies'⟩

/-- Where the same ids have keys and each rule that applies has a like on the other side, the
same keys are meant. -/
theorem meant_congr
    (hids : (d.contentKeys.map ContentKey.id).Perm (d'.contentKeys.map ContentKey.id))
    (hrules : ∀ r ∈ d.usageRules, r.keyId ∈ d.contentKeys.map ContentKey.id →
      r.Applies context → ∃ r' ∈ d'.usageRules, r'.keyId = r.keyId ∧ r'.Applies context')
    (hrules' : ∀ r ∈ d'.usageRules, r.keyId ∈ d'.contentKeys.map ContentKey.id →
      r.Applies context' → ∃ r' ∈ d.usageRules, r'.keyId = r.keyId ∧ r'.Applies context) :
    d.meant context = d'.meant context' :=
  Set.Subset.antisymm (meant_subset hids.subset hrules) (meant_subset hids.symm.subset hrules')

/-- One more filter of a rule never makes a key meant. -/
theorem meant_filter_subset {before after : List UsageRule} {r : UsageRule}
    {filters filters' : List UsageFilter} {filter : UsageFilter}
    (hrules : d.usageRules = before ++ r :: after) (hfilters : r.filters = filters ++ filters') :
    meant { d with
      usageRules := before ++ { r with filters := filters ++ filter :: filters' } :: after }
      context ⊆ d.meant context := by
  refine meant_subset (List.Subset.refl _) fun s hs _ happlies => ?_
  rw [hrules]
  rcases List.mem_append.1 hs with hs | hs
  · exact ⟨s, List.mem_append_left _ hs, rfl, happlies⟩
  rcases List.mem_cons.1 hs with rfl | hs
  · refine ⟨r, List.mem_append_right _ List.mem_cons_self, rfl, fun f hf => happlies f ?_⟩
    rw [hfilters] at hf
    rcases List.mem_append.1 hf with hf | hf
    · exact List.mem_append_left _ hf
    · exact List.mem_append_right _ (List.mem_cons_of_mem _ hf)
  · exact ⟨s, List.mem_append_right _ (List.mem_cons_of_mem _ hs), rfl, happlies⟩

/-- One more rule never makes a key no longer meant. -/
theorem subset_meant_rule {before after : List UsageRule} {r : UsageRule}
    (hrules : d.usageRules = before ++ after) :
    d.meant context ⊆ meant { d with usageRules := before ++ r :: after } context := by
  refine meant_subset (List.Subset.refl _) fun s hs _ happlies => ⟨s, ?_, rfl, happlies⟩
  rw [hrules] at hs
  rcases List.mem_append.1 hs with hs | hs
  · exact List.mem_append_left _ hs
  · exact List.mem_append_right _ (List.mem_cons_of_mem _ hs)

/-! ## The outcome -/

/-- What comes of some keys being counted: none, one, or several. -/
theorem resolve_cases (d : Document) (context : TrackContext) :
    (d.matchingKeys context = [] ∧ d.resolve context = .error .noMatchingKey) ∨
    (∃ k, d.matchingKeys context = [k] ∧ d.resolve context = .ok k) ∨
    2 ≤ (d.matchingKeys context).length ∧
      d.resolve context = .error (.ambiguousKey (d.matchingKeys context).length) := by
  rw [resolve]
  cases d.matchingKeys context with
  | nil => exact .inl ⟨rfl, rfl⟩
  | cons first rest =>
      cases rest with
      | nil => exact .inr (.inl ⟨first, rfl, rfl⟩)
      | cons second others => exact .inr (.inr ⟨Nat.le_add_left 2 _, rfl⟩)

/-- A key is resolved when it alone is counted. -/
theorem resolve_eq_ok_iff_matchingKeys :
    d.resolve context = .ok k ↔ d.matchingKeys context = [k] := by
  obtain ⟨hnone, hout⟩ | ⟨found, hone, hout⟩ | ⟨hmany, hout⟩ := resolve_cases d context
  · simp [hnone, hout]
  · simp [hone, hout]
  · rw [hout]
    exact ⟨nofun, fun hone => by simp [hone] at hmany⟩

/-- There is no key when none is counted. -/
theorem resolve_eq_noMatchingKey_iff_matchingKeys :
    d.resolve context = .error .noMatchingKey ↔ d.matchingKeys context = [] := by
  obtain ⟨hnone, hout⟩ | ⟨found, hone, hout⟩ | ⟨hmany, hout⟩ := resolve_cases d context
  · simp [hnone, hout]
  · simp [hone, hout]
  · rw [hout]
    exact ⟨nofun, fun hnone => by simp [hnone] at hmany⟩

/-- The track is ambiguous when several keys are counted, and the fault says how many. -/
theorem resolve_eq_ambiguousKey_iff_matchingKeys {n : ℕ} :
    d.resolve context = .error (.ambiguousKey n)
      ↔ 2 ≤ n ∧ (d.matchingKeys context).length = n := by
  obtain ⟨hnone, hout⟩ | ⟨found, hone, hout⟩ | ⟨hmany, hout⟩ := resolve_cases d context
  · simp only [hnone, hout, List.length_nil, Except.error.injEq, reduceCtorEq, false_iff]
    omega
  · simp only [hone, hout, List.length_singleton, reduceCtorEq, false_iff]
    omega
  · simp only [hout, Except.error.injEq, DocumentFault.ambiguousKey.injEq]
    omega

section Distinct

variable (hids : (d.contentKeys.map ContentKey.id).Nodup)

include hids

/-- No key is counted twice. -/
theorem nodup_matchingKeys : ((d.matchingKeys context).map ContentKey.id).Nodup :=
  hids.sublist ((List.filter_sublist).map _)

/-- As many keys are counted as are meant. -/
theorem ncard_meant : (d.meant context).ncard = (d.matchingKeys context).length := by
  have hmeant : d.meant context = ((d.matchingKeys context).map ContentKey.id).toFinset := by
    ext id
    rw [mem_meant_iff, Finset.mem_coe, List.mem_toFinset]
  rw [hmeant, Set.ncard_coe_finset, List.toFinset_card_of_nodup (nodup_matchingKeys hids),
    List.length_map]

/-- **A key is found** when it alone is meant. -/
theorem resolve_eq_ok_iff :
    d.resolve context = .ok k ↔ k ∈ d.contentKeys ∧ d.meant context = {k.id} := by
  rw [resolve_eq_ok_iff_matchingKeys]
  constructor
  · intro hone
    have hk : k ∈ d.matchingKeys context := by
      rw [hone]
      exact List.mem_singleton_self k
    refine ⟨(mem_matchingKeys_iff.1 hk).1, Set.ext fun id => ?_⟩
    rw [mem_meant_iff, hone, List.map_singleton, List.mem_singleton, Set.mem_singleton_iff]
  · rintro ⟨hk, hmeant⟩
    have hlength : (d.meant context).ncard = (d.matchingKeys context).length := ncard_meant hids
    rw [hmeant, Set.ncard_singleton] at hlength
    obtain ⟨found, hone⟩ := List.length_eq_one_iff.1 hlength.symm
    have hfound : found ∈ d.matchingKeys context := by
      rw [hone]
      exact List.mem_singleton_self found
    obtain ⟨hmem, hid⟩ := mem_matchingKeys_iff.1 hfound
    rw [hmeant, Set.mem_singleton_iff] at hid
    rw [hone, List.inj_on_of_nodup_map hids hmem hk hid]

/-- **Several keys**, and how many: two or more are meant. -/
theorem resolve_eq_ambiguousKey_iff {n : ℕ} :
    d.resolve context = .error (.ambiguousKey n) ↔ 2 ≤ n ∧ (d.meant context).ncard = n := by
  rw [resolve_eq_ambiguousKey_iff_matchingKeys, ncard_meant hids]

end Distinct

/-- **No key**: none is meant. -/
theorem resolve_eq_noMatchingKey_iff :
    d.resolve context = .error .noMatchingKey ↔ d.meant context = ∅ := by
  rw [resolve_eq_noMatchingKey_iff_matchingKeys, Set.eq_empty_iff_forall_notMem]
  constructor
  · intro hnone id hid
    rw [mem_meant_iff, hnone] at hid
    exact List.not_mem_nil hid
  · intro hnone
    rw [List.eq_nil_iff_forall_not_mem]
    exact fun k hk => hnone k.id (mem_matchingKeys_iff.1 hk).2

/-! ## What does not count -/

/-- Only the keys, in whatever order, and the set of those that are meant decide. -/
theorem resolve_congr (hkeys : d.contentKeys.Perm d'.contentKeys)
    (hmeant : d.meant context = d'.meant context') :
    d.resolve context = d'.resolve context' := by
  have hsame : d.matchingKeys context = d.contentKeys.filter fun key =>
      (d'.rulesFor key.id).any fun r => r.matches context' := by
    refine List.filter_congr fun k hk => Bool.eq_iff_iff.2 ?_
    have hleft : k ∈ d.matchingKeys context ↔ _ := mem_matchingKeys_iff
    have hright : k ∈ d'.matchingKeys context' ↔ _ := mem_matchingKeys_iff
    rw [matchingKeys, List.mem_filter, hmeant] at hleft
    rw [matchingKeys, List.mem_filter] at hright
    have hk' := hkeys.mem_iff.1 hk
    tauto
  have hperm : (d.matchingKeys context).Perm (d'.matchingKeys context') := by
    rw [hsame]
    exact hkeys.filter _
  obtain ⟨hnone, hout⟩ | ⟨found, hone, hout⟩ | ⟨hmany, hout⟩ := resolve_cases d context
  · rw [hnone] at hperm
    rw [hout, eq_comm, resolve_eq_noMatchingKey_iff_matchingKeys, List.nil_perm.1 hperm]
  · rw [hone] at hperm
    rw [hout, eq_comm, resolve_eq_ok_iff_matchingKeys, List.singleton_perm.1 hperm]
  · rw [hout, eq_comm, resolve_eq_ambiguousKey_iff_matchingKeys]
    exact ⟨hmany, hperm.length_eq.symm⟩

end Document

/-- A document and a track that a key of it is sought for. -/
structure Inquiry where
  document : Document
  context : TrackContext

namespace Inquiry

/-- What comes of it. -/
def answer (q : Inquiry) : Except DocumentFault ContentKey := q.document.resolve q.context

/-- One change that does not count: another order of the keys, of the rules or of the
filters of one rule, a rule said again, labels in another order or number, and a rule
for a key that is missing. -/
inductive Step : Inquiry → Inquiry → Prop
  | keys {d : Document} {context : TrackContext} {contentKeys : List ContentKey}
      (h : contentKeys.Perm d.contentKeys) : Step ⟨d, context⟩ ⟨{ d with contentKeys }, context⟩
  | rules {d : Document} {context : TrackContext} {usageRules : List UsageRule}
      (h : usageRules.Perm d.usageRules) : Step ⟨d, context⟩ ⟨{ d with usageRules }, context⟩
  | filters {d : Document} {context : TrackContext} {r : UsageRule} {rs : List UsageRule}
      {filters : List UsageFilter} (h : filters.Perm r.filters) :
      Step ⟨{ d with usageRules := r :: rs }, context⟩
        ⟨{ d with usageRules := { r with filters } :: rs }, context⟩
  | again {d : Document} {context : TrackContext} {r : UsageRule} (h : r ∈ d.usageRules) :
      Step ⟨d, context⟩ ⟨{ d with usageRules := r :: d.usageRules }, context⟩
  | labels {d : Document} {context : TrackContext} {labels : List String}
      (h : ∀ label, label ∈ labels ↔ label ∈ context.labels) :
      Step ⟨d, context⟩ ⟨d, { context with labels }⟩
  | dangling {d : Document} {context : TrackContext} {r : UsageRule}
      (h : r.keyId ∉ d.contentKeys.map ContentKey.id) :
      Step ⟨d, context⟩ ⟨{ d with usageRules := r :: d.usageRules }, context⟩

/-- A filter asks nothing of the labels but which there are. -/
theorem satisfied_of_labels {context : TrackContext} {labels labels' : List String}
    {f : UsageFilter} (h : ∀ label, label ∈ labels → label ∈ labels')
    (hf : f.Satisfied { context with labels := labels }) :
    f.Satisfied { context with labels := labels' } := by
  cases hf with
  | video htrack hwithin => exact .video htrack hwithin
  | audio htrack hwithin => exact .audio htrack hwithin
  | bitrate hknown hwithin => exact .bitrate hknown hwithin
  | label hlisted => exact .label (h _ hlisted)

variable {q q' : Inquiry}

/-- The keys are the same, and the same of them are meant. -/
theorem Step.same (h : Step q q') :
    q.document.contentKeys.Perm q'.document.contentKeys ∧
      q.document.meant q.context = q'.document.meant q'.context := by
  cases h with
  | keys hperm =>
      exact ⟨hperm.symm, Document.meant_congr (hperm.symm.map ContentKey.id)
        (fun r hr _ happlies => ⟨r, hr, rfl, happlies⟩)
        (fun r hr _ happlies => ⟨r, hr, rfl, happlies⟩)⟩
  | rules hperm =>
      exact ⟨.rfl, Document.meant_congr .rfl
        (fun r hr _ happlies => ⟨r, hperm.mem_iff.2 hr, rfl, happlies⟩)
        (fun r hr _ happlies => ⟨r, hperm.mem_iff.1 hr, rfl, happlies⟩)⟩
  | @filters d context r rs filters hperm =>
      refine ⟨.rfl, Document.meant_congr .rfl (fun s hs _ happlies => ?_)
        (fun s hs _ happlies => ?_)⟩
      · rcases List.mem_cons.1 hs with rfl | hs
        · exact ⟨_, List.mem_cons_self, rfl, fun f hf => happlies f (hperm.mem_iff.1 hf)⟩
        · exact ⟨s, List.mem_cons_of_mem _ hs, rfl, happlies⟩
      · rcases List.mem_cons.1 hs with rfl | hs
        · exact ⟨r, List.mem_cons_self, rfl, fun f hf => happlies f (hperm.mem_iff.2 hf)⟩
        · exact ⟨s, List.mem_cons_of_mem _ hs, rfl, happlies⟩
  | @again d context r hr =>
      refine ⟨.rfl, Document.meant_congr .rfl
        (fun s hs _ happlies => ⟨s, List.mem_cons_of_mem _ hs, rfl, happlies⟩)
        (fun s hs _ happlies => ?_)⟩
      rcases List.mem_cons.1 hs with rfl | hs
      · exact ⟨s, hr, rfl, happlies⟩
      · exact ⟨s, hs, rfl, happlies⟩
  | @labels d context labels hlabels =>
      exact ⟨.rfl, Document.meant_congr .rfl
        (fun r hr _ happlies => ⟨r, hr, rfl, fun f hf =>
          satisfied_of_labels (fun label => (hlabels label).2) (happlies f hf)⟩)
        (fun r hr _ happlies => ⟨r, hr, rfl, fun f hf =>
          satisfied_of_labels (fun label => (hlabels label).1) (happlies f hf)⟩)⟩
  | @dangling d context r hmissing =>
      refine ⟨.rfl, Document.meant_congr .rfl
        (fun s hs _ happlies => ⟨s, List.mem_cons_of_mem _ hs, rfl, happlies⟩)
        (fun s hs hid happlies => ?_)⟩
      rcases List.mem_cons.1 hs with rfl | hs
      · exact absurd hid hmissing
      · exact ⟨s, hs, rfl, happlies⟩

/-- **One change** that does not count. -/
theorem Step.answer_eq (h : Step q q') : q.answer = q'.answer :=
  Document.resolve_congr h.same.1 h.same.2

/-- **Any number of changes**, made and undone. -/
theorem answer_eq_of_eqvGen (h : Relation.EqvGen Step q q') : q.answer = q'.answer := by
  induction h with
  | rel _ _ hstep => exact hstep.answer_eq
  | refl _ => rfl
  | symm _ _ _ ih => exact ih.symm
  | trans _ _ _ _ _ ih ih' => exact ih.trans ih'

end Inquiry

namespace Document

/-- The dangling rules are those whose id no key has. -/
theorem danglingRules_eq (d : Document) :
    d.danglingRules
      = d.usageRules.filter fun r => decide (r.keyId ∉ d.contentKeys.map ContentKey.id) := by
  refine List.filter_congr fun r _ => Bool.eq_iff_iff.2 ?_
  rw [decide_eq_true_eq, ← isSome_contentKey?_iff, Option.isNone_iff_eq_none,
    Option.not_isSome_iff_eq_none]

/-- **The key for a track.**  A document that is being built or was loaded has no id
twice.  For any such document and any track: the key is found exactly when its id alone
is meant; none is found exactly when none is meant; and several are reported, with their
number, exactly when as many as two or more are meant.  Changes of order, repetitions and
rules for missing keys, which are those that the document lists as dangling, leave the
answer as it is; one more filter never makes a key meant, and one more rule never
makes a key no longer meant. -/
theorem resolve_exact :
    (∀ edits, ((empty.editEach edits).contentKeys.map ContentKey.id).Nodup) ∧
    (∀ settings credentials artifact d, load settings credentials artifact = .ok d →
      (d.contentKeys.map ContentKey.id).Nodup) ∧
    ∀ (d : Document) (context : TrackContext), (d.contentKeys.map ContentKey.id).Nodup →
      (∀ k, d.resolve context = .ok k ↔ k ∈ d.contentKeys ∧ d.meant context = {k.id}) ∧
      (d.resolve context = .error .noMatchingKey ↔ d.meant context = ∅) ∧
      (∀ n, d.resolve context = .error (.ambiguousKey n)
        ↔ 2 ≤ n ∧ (d.meant context).ncard = n) ∧
      (∀ d' context', Relation.EqvGen Inquiry.Step ⟨d, context⟩ ⟨d', context'⟩ →
        d'.resolve context' = d.resolve context) ∧
      d.danglingRules
        = d.usageRules.filter (fun r => decide (r.keyId ∉ d.contentKeys.map ContentKey.id)) ∧
      (∀ before r after filters filter filters',
        d.usageRules = before ++ r :: after → r.filters = filters ++ filters' →
        meant { d with
          usageRules := before ++ { r with filters := filters ++ filter :: filters' } :: after }
          context ⊆ d.meant context) ∧
      ∀ before r after, d.usageRules = before ++ after →
        d.meant context ⊆ meant { d with usageRules := before ++ r :: after } context := by
  refine ⟨fun edits => (built_editEach edits).distinct,
    fun settings credentials artifact d => nodup_ids_of_load, fun d context hids => ?_⟩
  exact ⟨fun k => resolve_eq_ok_iff hids, resolve_eq_noMatchingKey_iff,
    fun n => resolve_eq_ambiguousKey_iff hids,
    fun d' context' hsteps => (Inquiry.answer_eq_of_eqvGen hsteps).symm, danglingRules_eq d,
    fun before r after filters filter filters' => meant_filter_subset,
    fun before r after => subset_meant_rule⟩

/-- A track of the standard size needs the first key, also when the rules stand the other
way round after one for a missing key. -/
theorem resolve_exact_sampleRules :
    let d := empty.editEach (Sample.plainEdits ++ Sample.sampleRules.map .addUsageRule)
    let context : TrackContext := ⟨.video Sample.standardPixels, none, []⟩
    let missing : UsageRule := ⟨⟨.replicate 16 0⟩, []⟩
    (d.contentKeys.map ContentKey.id).Nodup ∧ d.meant context = {Sample.keyA} ∧
    resolve { d with usageRules := missing :: d.usageRules.reverse } context
      = .ok ⟨Sample.keyA, some Sample.valueA⟩ ∧
    meant { d with usageRules := { missing with filters := [.label "HD"] } :: d.usageRules } context
      ⊆ meant { d with usageRules := missing :: d.usageRules } context ∧
    ∃ d', load {} [] ((StoredDocument.bareDocument formatVersion [] none).toArtifact .compact)
        = .ok d' ∧ (d'.contentKeys.map ContentKey.id).Nodup := by
  intro d context missing
  obtain ⟨hbuilt, hloaded, hexact⟩ := resolve_exact
  have hids : (d.contentKeys.map ContentKey.id).Nodup := hbuilt _
  obtain ⟨hok, -, -, hsteps, -⟩ := hexact d context hids
  have hfound : d.resolve context = .ok ⟨Sample.keyA, some Sample.valueA⟩ := rfl
  have hreversed : Relation.EqvGen Inquiry.Step ⟨d, context⟩
      ⟨{ d with usageRules := d.usageRules.reverse }, context⟩ :=
    .rel _ _ (.rules (List.reverse_perm _))
  have hmissing : Relation.EqvGen Inquiry.Step
      ⟨{ d with usageRules := d.usageRules.reverse }, context⟩
      ⟨{ d with usageRules := missing :: d.usageRules.reverse }, context⟩ :=
    .rel _ _ (.dangling (by decide))
  have hread := (StoredDocument.wellFormed_bareDocument none).ofArtifact_toArtifact .compact
  have hfits : ((StoredDocument.bareDocument formatVersion [] none).toArtifact .compact).length
      ≤ Settings.maxArtifactLength {} := by decide +kernel
  have hkey : (StoredDocument.bareDocument formatVersion [] none).recoverKey [] = .ok none := rfl
  obtain ⟨d', hload⟩ := exists_load_of_recoverKey hfits hread hkey
  obtain ⟨-, -, -, -, -, hfilter, -⟩ :=
    hexact { d with usageRules := missing :: d.usageRules } context hids
  exact ⟨hids, ((hok _).1 hfound).2, (hsteps _ _ (hreversed.trans _ _ _ hmissing)).trans hfound,
    hfilter [] missing d.usageRules [] (.label "HD") [] rfl rfl, d', hload,
    hloaded _ _ _ d' hload⟩

end Document

end KeyExchange
