import Mathlib
import IgnTransport.TopicUtils

/-!
# IgnTransport.TopicNames — what a fully qualified name says

A name is `@partition@topic`.  The validators keep `'@'` and `"//"` out of the pieces, so that the two parts can be
told apart, and the five edits of `GetFullyQualifiedName` put each piece into a normal form: `normalise` of a
partition, `absoluteTopic` of a topic in a namespace.

* `name_eq_iff`: two names are equal iff the normal forms of their parts are.
* `stripName_of_fqn`, `fqn_stripName`: a name without its partition is again a topic, and its name is the same.
* `canonical_name`: exactly which pieces are accepted, and the shape of the name.
-/

namespace IgnTransport

namespace TopicUtils

/-! ## Slashes -/

section Slashes

/-- No slash at the start. -/
def dropLeading (s : Str) : Str := if s.head? = some slash then s.tail else s

/-- No slash at the end. -/
def dropTrailing (s : Str) : Str := if s.getLast? = some slash then s.dropLast else s

/-- Without one slash at the start and one at the end. -/
def bare (s : Str) : Str := dropTrailing (dropLeading s)

/-- The normal form of a partition, or of a namespace: empty, or a slash and the bare name. -/
def normalise (s : Str) : Str := if s = [] then [] else slash :: bare s

/-- The absolute topic: the topic itself if it starts with a slash, else the topic behind its namespace. -/
def absoluteTopic (ns topic : Str) : Str :=
  if topic.head? = some slash then dropTrailing topic else normalise ns ++ slash :: dropTrailing topic

/-- The spellings of a name: with or without a slash at the start and at the end. -/
def spellings (s : Str) : List Str :=
  if s = [] then [[]] else [bare s, slash :: bare s, bare s ++ [slash], slash :: bare s ++ [slash]]

theorem eq_dropLeading (s : Str) : s = dropLeading s ∨ s = slash :: dropLeading s := by
  cases s with
  | nil => exact .inl rfl
  | cons c s =>
    unfold dropLeading
    split_ifs with h
    · rw [List.head?_cons] at h
      rw [Option.some.inj h]
      exact .inr rfl
    · exact .inl rfl

theorem eq_dropTrailing (s : Str) : s = dropTrailing s ∨ s = dropTrailing s ++ [slash] := by
  unfold dropTrailing
  split_ifs with h
  · exact .inr (List.dropLast_append_getLast? _ h).symm
  · exact .inl rfl

theorem cons_dropLeading {s : Str} (h : s.head? = some slash) : slash :: dropLeading s = s := by
  obtain ⟨u, rfl⟩ := List.head?_eq_some_iff.mp h
  rfl

theorem concat_dropTrailing {s : Str} (h : s.getLast? = some slash) : dropTrailing s ++ [slash] = s := by
  rw [dropTrailing, if_pos h]
  exact List.dropLast_append_getLast? _ h

theorem dropTrailing_concat (s : Str) : dropTrailing (s ++ [slash]) = s := by
  rw [dropTrailing, if_pos (by simp), List.dropLast_concat]

theorem dropTrailing_of_ne {s : Str} (h : s.getLast? ≠ some slash) : dropTrailing s = s := if_neg h

theorem dropLeading_cons (s : Str) : dropLeading (slash :: s) = s := if_pos rfl

theorem dropLeading_of_ne {s : Str} (h : s.head? ≠ some slash) : dropLeading s = s := if_neg h

theorem getLast?_cons_of_ne_nil {c : UInt8} {s : Str} (h : s ≠ []) : (c :: s).getLast? = s.getLast? := by
  obtain ⟨d, s, rfl⟩ := List.exists_cons_of_ne_nil h
  exact List.getLast?_cons_cons

theorem dropTrailing_cons {c : UInt8} {s : Str} (h : s ≠ []) : dropTrailing (c :: s) = c :: dropTrailing s := by
  unfold dropTrailing
  rw [getLast?_cons_of_ne_nil h]
  split_ifs
  · exact List.dropLast_cons_of_ne_nil h
  · rfl

end Slashes

/-! ## Clean strings -/

section Clean

theorem hasDoubleSlash_append (a b : Str) : hasDoubleSlash (a ++ b) =
    (hasDoubleSlash a || hasDoubleSlash b || (a.getLast? = some slash && b.head? = some slash)) := by
  induction a with
  | nil => simp [hasDoubleSlash]
  | cons c a ih =>
    cases a with
    | nil => cases b <;> simp [hasDoubleSlash, Bool.or_comm]
    | cons d a =>
      rw [List.cons_append, List.cons_append, hasDoubleSlash, ← List.cons_append, ih, hasDoubleSlash,
        List.getLast?_cons_cons]
      simp only [Bool.or_assoc]

/-- What the validators ask of every name: none of their characters, and no two slashes in a row. -/
def Clean (s : Str) : Prop := (∀ c ∈ s, c ≠ tilde ∧ c ≠ blank ∧ c ≠ atSign) ∧ hasDoubleSlash s = false

theorem isValidNamespace_iff (s : Str) : isValidNamespace s = true ↔ s ≠ [slash] ∧ Clean s := by
  unfold isValidNamespace Clean
  split_ifs with hslash htilde hblank hdouble hat
  · simp [hslash]
  · simp only [List.contains_iff_mem] at htilde
    exact iff_of_false (by simp) fun h => (h.2.1 _ htilde).1 rfl
  · simp only [List.contains_iff_mem] at hblank
    exact iff_of_false (by simp) fun h => (h.2.1 _ hblank).2.1 rfl
  · exact iff_of_false (by simp) fun h => by simp [hdouble] at h
  · simp only [List.contains_iff_mem] at hat
    exact iff_of_false (by simp) fun h => (h.2.1 _ hat).2.2 rfl
  · simp only [List.contains_iff_mem] at htilde hblank hat
    refine iff_of_true rfl ⟨hslash, fun c hc => ⟨?_, ?_, ?_⟩, by simpa using hdouble⟩
    · rintro rfl
      exact htilde hc
    · rintro rfl
      exact hblank hc
    · rintro rfl
      exact hat hc

theorem isValidTopic_iff (s : Str) : isValidTopic s = true ↔ s ≠ [] ∧ s ≠ [slash] ∧ Clean s := by
  rw [isValidTopic, Bool.and_eq_true, isValidNamespace_iff, Bool.not_eq_true', List.isEmpty_eq_false_iff]
  exact and_comm

theorem clean_append {a b : Str} :
    Clean (a ++ b) ↔ Clean a ∧ Clean b ∧ ¬ (a.getLast? = some slash ∧ b.head? = some slash) := by
  unfold Clean
  rw [hasDoubleSlash_append]
  simp only [List.forall_mem_append, Bool.or_eq_false_iff, Bool.and_eq_false_iff, decide_eq_false_iff_not]
  tauto

theorem clean_nil : Clean [] := ⟨by simp, rfl⟩

theorem clean_slash : Clean [slash] := ⟨by simp [slash, tilde, blank, atSign], rfl⟩

theorem clean_cons {s : Str} : Clean (slash :: s) ↔ Clean s ∧ s.head? ≠ some slash := by
  rw [← List.singleton_append, clean_append]
  simp [clean_slash]

theorem clean_concat {s : Str} : Clean (s ++ [slash]) ↔ Clean s ∧ s.getLast? ≠ some slash := by
  rw [clean_append]
  simp [clean_slash]

/-- A clean name that has no slash at its start and at its end, and is not empty. -/
structure Inner (b : Str) : Prop where
  clean : Clean b
  ne_nil : b ≠ []
  head : b.head? ≠ some slash
  last : b.getLast? ≠ some slash

theorem clean_dropLeading {s : Str} (h : Clean s) : Clean (dropLeading s) ∧ (dropLeading s).head? ≠ some slash := by
  by_cases hs : s.head? = some slash
  · obtain ⟨u, rfl⟩ := List.head?_eq_some_iff.mp hs
    rw [dropLeading_cons]
    exact clean_cons.mp h
  · rw [dropLeading_of_ne hs]
    exact ⟨h, hs⟩

theorem clean_dropTrailing {s : Str} (h : Clean s) :
    Clean (dropTrailing s) ∧ (dropTrailing s).getLast? ≠ some slash := by
  by_cases hs : s.getLast? = some slash
  · obtain ⟨u, rfl⟩ := List.getLast?_eq_some_iff.mp hs
    rw [dropTrailing_concat]
    exact clean_concat.mp h
  · rw [dropTrailing_of_ne hs]
    exact ⟨h, hs⟩

theorem head_dropTrailing {s : Str} (h : s.head? ≠ some slash) : (dropTrailing s).head? ≠ some slash := by
  rcases eq_dropTrailing s with heq | heq
  · rwa [← heq]
  · cases hu : dropTrailing s with
    | nil => simp
    | cons c u =>
      rw [heq, hu] at h
      exact h

theorem dropTrailing_ne_nil {s : Str} (hne : s ≠ []) (hslash : s ≠ [slash]) : dropTrailing s ≠ [] := by
  intro hnil
  rcases eq_dropTrailing s with heq | heq
  · exact hne (heq.trans hnil)
  · rw [hnil] at heq
    exact hslash heq

theorem dropLeading_ne_nil {s : Str} (hne : s ≠ []) (hslash : s ≠ [slash]) : dropLeading s ≠ [] := by
  intro hnil
  rcases eq_dropLeading s with heq | heq
  · exact hne (heq.trans hnil)
  · rw [hnil] at heq
    exact hslash heq

theorem inner_bare {s : Str} (h : isValidNamespace s = true) (hne : s ≠ []) : Inner (bare s) := by
  obtain ⟨hslash, hclean⟩ := (isValidNamespace_iff s).mp h
  obtain ⟨hlead, hhead⟩ := clean_dropLeading hclean
  obtain ⟨htrail, hlast⟩ := clean_dropTrailing hlead
  refine ⟨htrail, dropTrailing_ne_nil (dropLeading_ne_nil hne hslash) ?_, head_dropTrailing hhead, hlast⟩
  intro heq
  rw [heq] at hhead
  exact hhead rfl

theorem bare_of_inner {b : Str} (h : Inner b) : bare b = b ∧ bare (slash :: b) = b ∧ bare (b ++ [slash]) = b ∧
    bare (slash :: b ++ [slash]) = b := by
  have hconcat : (b ++ [slash]).head? ≠ some slash := by
    rw [List.head?_append_of_ne_nil _ h.ne_nil]
    exact h.head
  unfold bare
  refine ⟨?_, ?_, ?_, ?_⟩
  · rw [dropLeading_of_ne h.head, dropTrailing_of_ne h.last]
  · rw [dropLeading_cons, dropTrailing_of_ne h.last]
  · rw [dropLeading_of_ne hconcat, dropTrailing_concat]
  · rw [List.cons_append, dropLeading_cons, dropTrailing_concat]

/-- Every spelling of a name is one that the validator accepts, and has the same normal form. -/
theorem normalise_spelling {s s' : Str} (h : isValidNamespace s = true) (hs' : s' ∈ spellings s) :
    isValidNamespace s' = true ∧ normalise s' = normalise s := by
  unfold spellings at hs'
  split_ifs at hs' with hnil
  · rw [List.mem_singleton.mp hs', hnil]
    exact ⟨rfl, rfl⟩
  · have hb := inner_bare h hnil
    obtain ⟨h₁, h₂, h₃, h₄⟩ := bare_of_inner hb
    have hclean : Clean (slash :: bare s) := clean_cons.mpr ⟨hb.clean, hb.head⟩
    have hlast : (slash :: bare s).getLast? ≠ some slash := by
      rw [getLast?_cons_of_ne_nil hb.ne_nil]
      exact hb.last
    have hnormal : ∀ u, Clean u → u ≠ [] → u ≠ [slash] → bare u = bare s →
        isValidNamespace u = true ∧ normalise u = normalise s := by
      intro u hu hne hslash hbare
      refine ⟨(isValidNamespace_iff u).mpr ⟨hslash, hu⟩, ?_⟩
      rw [normalise, if_neg hne, normalise, if_neg hnil, hbare]
    simp only [List.mem_cons, List.not_mem_nil, or_false] at hs'
    rcases hs' with rfl | rfl | rfl | rfl
    · exact hnormal _ hb.clean hb.ne_nil (fun heq => hb.head (by rw [heq]; rfl)) h₁
    · exact hnormal _ hclean (List.cons_ne_nil _ _) (fun heq => hb.ne_nil (List.cons_eq_cons.mp heq).2) h₂
    · refine hnormal _ (clean_concat.mpr ⟨hb.clean, hb.last⟩) (by simp) (fun heq => hb.ne_nil ?_) h₃
      exact (List.append_eq_singleton_iff.mp heq).elim (fun h => h.1) fun h => by cases h.2
    · refine hnormal _ (clean_concat.mpr ⟨hclean, hlast⟩) (List.cons_ne_nil _ _) (fun heq => ?_) h₄
      simp at heq

/-- A name is a spelling of itself. -/
theorem mem_spellings_self (s : Str) : s ∈ spellings s := by
  unfold spellings bare
  split_ifs with hnil
  · exact List.mem_singleton.mpr hnil
  · simp only [List.mem_cons, List.not_mem_nil, or_false]
    rcases eq_dropLeading s with hlead | hlead <;> rcases eq_dropTrailing (dropLeading s) with htrail | htrail
    · exact .inl (hlead.trans htrail)
    · exact .inr (.inr (.inl (hlead.trans htrail)))
    · exact .inr (.inl (by rw [← htrail]; exact hlead))
    · exact .inr (.inr (.inr (by rw [List.cons_append, ← htrail]; exact hlead)))

end Clean

/-! ## The two parts of a name -/

section Parts

variable {partition ns topic : Str}

theorem clean_normalise (h : isValidNamespace ns = true) :
    Clean (normalise ns) ∧ (normalise ns).getLast? ≠ some slash := by
  unfold normalise
  split_ifs with hnil
  · exact ⟨clean_nil, by simp⟩
  · have hb := inner_bare h hnil
    rw [getLast?_cons_of_ne_nil hb.ne_nil]
    exact ⟨clean_cons.mpr ⟨hb.clean, hb.head⟩, hb.last⟩

/-- The end of both edits: a trailing slash goes. -/
theorem if_last_eq (s : Str) : (if s ≠ [] ∧ s.getLast? = some slash then s.dropLast else s) = dropTrailing s := by
  unfold dropTrailing
  refine if_congr (and_iff_right_of_imp ?_) rfl rfl
  rintro h rfl
  cases h

theorem partitionPart_eq (h : isValidNamespace partition = true) : partitionPart partition = normalise partition := by
  obtain ⟨hslash, -⟩ := (isValidNamespace_iff partition).mp h
  unfold normalise
  split_ifs with hnil
  · rw [hnil]
    rfl
  · have hlead : (if partition ≠ [] ∧ partition.head? ≠ some slash then slash :: partition else partition) =
        slash :: dropLeading partition := by
      split_ifs with hhead
      · rw [dropLeading_of_ne hhead.2]
      · exact (cons_dropLeading (not_not.mp fun hne => hhead ⟨hnil, hne⟩)).symm
    unfold partitionPart
    simp only [hlead]
    rw [if_last_eq, dropTrailing_cons (dropLeading_ne_nil hnil hslash)]
    rfl

/-- The two edits of the namespace leave its normal form, and a slash behind it. -/
theorem namespace_eq (h : isValidNamespace ns = true) :
    slash :: dropLeading (dropTrailing ns ++ [slash]) = normalise ns ++ [slash] := by
  unfold normalise
  split_ifs with hnil
  · rw [hnil]
    rfl
  · have hb := inner_bare h hnil
    have hmem := mem_spellings_self ns
    have hdrop : dropLeading (bare ns ++ [slash]) = bare ns ++ [slash] := by
      refine dropLeading_of_ne ?_
      rw [List.head?_append_of_ne_nil _ hb.ne_nil]
      exact hb.head
    simp only [spellings, if_neg hnil, List.mem_cons, List.not_mem_nil, or_false] at hmem
    have htrail : dropTrailing ns = bare ns ∨ dropTrailing ns = slash :: bare ns := by
      rcases hmem with heq | heq | heq | heq
      · exact .inl (by conv_lhs => rw [heq, dropTrailing_of_ne hb.last])
      · exact .inr (by conv_lhs => rw [heq, dropTrailing_cons hb.ne_nil, dropTrailing_of_ne hb.last])
      · exact .inl (by conv_lhs => rw [heq, dropTrailing_concat])
      · exact .inr (by conv_lhs => rw [heq, dropTrailing_concat])
    rcases htrail with heq | heq
    · rw [heq, hdrop]
      rfl
    · rw [heq]
      rfl

theorem head_dropTrailing_iff {s : Str} (hslash : s ≠ [slash]) :
    (dropTrailing s).head? = some slash ↔ s.head? = some slash := by
  refine ⟨fun h => not_not.mp fun hne => head_dropTrailing hne h, fun h => ?_⟩
  obtain ⟨u, rfl⟩ := List.head?_eq_some_iff.mp h
  have hu : u ≠ [] := fun hnil => hslash (by rw [hnil])
  rw [dropTrailing_cons hu]
  rfl

theorem topicPart_eq (hns : isValidNamespace ns = true) (htopic : isValidTopic topic = true) :
    topicPart ns topic = absoluteTopic ns topic := by
  obtain ⟨hne, hslash, -⟩ := (isValidTopic_iff topic).mp htopic
  have hlast : (if ns = [] ∨ ns.getLast? ≠ some slash then ns ++ [slash] else ns) = dropTrailing ns ++ [slash] := by
    split_ifs with h
    · rw [dropTrailing_of_ne]
      rcases h with rfl | h
      · simp
      · exact h
    · exact (concat_dropTrailing (not_not.mp fun hlast => h (.inr hlast))).symm
  have hhead : ∀ u : Str, (if u = [] ∨ u.head? ≠ some slash then slash :: u else u) = slash :: dropLeading u := by
    intro u
    split_ifs with h
    · rw [dropLeading_of_ne]
      rcases h with rfl | h
      · simp
      · exact h
    · exact (cons_dropLeading (not_not.mp fun hhead => h (.inr hhead))).symm
  unfold topicPart absoluteTopic
  simp only [hlast, hhead, if_last_eq]
  rw [namespace_eq hns, List.append_assoc, List.singleton_append]
  refine if_congr ?_ rfl rfl
  rw [head_dropTrailing_iff hslash]
  exact and_iff_right (dropTrailing_ne_nil hne hslash)

/-- A valid topic is what its absolute topic is made of. -/
theorem clean_absoluteTopic (hns : isValidNamespace ns = true) (htopic : isValidTopic topic = true) :
    Clean (absoluteTopic ns topic) ∧ (absoluteTopic ns topic).head? = some slash ∧
      (absoluteTopic ns topic).getLast? ≠ some slash := by
  obtain ⟨hne, hslash, hclean⟩ := (isValidTopic_iff topic).mp htopic
  obtain ⟨htrail, hlast⟩ := clean_dropTrailing hclean
  unfold absoluteTopic
  split_ifs with hhead
  · exact ⟨htrail, (head_dropTrailing_iff hslash).mpr hhead, hlast⟩
  · obtain ⟨hnormal, hend⟩ := clean_normalise hns
    have hcons : Clean (slash :: dropTrailing topic) := clean_cons.mpr ⟨htrail, head_dropTrailing hhead⟩
    refine ⟨clean_append.mpr ⟨hnormal, hcons, fun h => hend h.1⟩, ?_, ?_⟩
    · unfold normalise
      split_ifs <;> rfl
    · rw [List.getLast?_append_of_ne_nil _ (List.cons_ne_nil _ _),
        getLast?_cons_of_ne_nil (dropTrailing_ne_nil hne hslash)]
      exact hlast

end Parts

/-! ## Names -/

section Names

variable {partition ns topic name : Str}

/-- What `GetFullyQualifiedName` accepts, and the name it builds. -/
theorem getFullyQualifiedName_eq_some_iff : getFullyQualifiedName partition ns topic = some name ↔
    (isValidNamespace partition = true ∧ isValidNamespace ns = true ∧ isValidTopic topic = true) ∧
      name = atSign :: normalise partition ++ atSign :: absoluteTopic ns topic := by
  unfold getFullyQualifiedName
  split_ifs with h
  · refine iff_of_false (by simp) fun hvalid => ?_
    simp [hvalid.1] at h
  · have hvalid : isValidNamespace partition = true ∧ isValidNamespace ns = true ∧ isValidTopic topic = true := by
      simpa [and_assoc] using h
    rw [partitionPart_eq hvalid.1, topicPart_eq hvalid.2.1 hvalid.2.2, Option.some.injEq, eq_comm (a := name)]
    exact (and_iff_right hvalid).symm

theorem atSign_not_mem {s : Str} (h : Clean s) : atSign ∉ s := fun hat => (h.1 _ hat).2.2 rfl

/-- The two parts of a name can be told apart. -/
theorem name_inj {p t : Str} (q u : Str) (hp : Clean p) (ht : Clean t) :
    atSign :: p ++ atSign :: t = atSign :: q ++ atSign :: u ↔ p = q ∧ t = u := by
  rw [List.cons_append, List.cons_append, List.cons_inj_right,
    List.append_cons_inj_of_notMem (atSign_not_mem hp) (atSign_not_mem ht)]
  exact and_congr_right fun _ => and_iff_right rfl

/-- **Partition isolation**: two names are equal iff their partitions are, and their absolute topics.  Nodes whose
partitions differ share no name, and the spelling of a partition or namespace does not matter. -/
theorem fullyQualifiedName_eq_iff {p₁ ns₁ t₁ p₂ ns₂ t₂ name₁ name₂ : Str}
    (h₁ : getFullyQualifiedName p₁ ns₁ t₁ = some name₁) (h₂ : getFullyQualifiedName p₂ ns₂ t₂ = some name₂) :
    (name₁ = name₂ ↔ normalise p₁ = normalise p₂ ∧ absoluteTopic ns₁ t₁ = absoluteTopic ns₂ t₂) ∧
      (normalise p₁ ≠ normalise p₂ → name₁ ≠ name₂) ∧
      ∀ p ∈ spellings p₁, ∀ ns ∈ spellings ns₁, getFullyQualifiedName p ns t₁ = some name₁ := by
  obtain ⟨⟨hp₁, hns₁, ht₁⟩, rfl⟩ := getFullyQualifiedName_eq_some_iff.mp h₁
  obtain ⟨-, rfl⟩ := getFullyQualifiedName_eq_some_iff.mp h₂
  have hinj := name_inj (normalise p₂) (absoluteTopic ns₂ t₂) (clean_normalise hp₁).1 (clean_absoluteTopic hns₁ ht₁).1
  refine ⟨hinj, fun hne heq => hne (hinj.mp heq).1, fun p hp ns hns => ?_⟩
  obtain ⟨hvalid, hpartition⟩ := normalise_spelling hp₁ hp
  obtain ⟨hvalid', hnamespace⟩ := normalise_spelling hns₁ hns
  refine getFullyQualifiedName_eq_some_iff.mpr ⟨⟨hvalid, hvalid', ht₁⟩, ?_⟩
  unfold absoluteTopic
  rw [hpartition, hnamespace]

/-- 't' under 'p/' and 'n/' has the name of 't/' under '/p' and '/n'. -/
theorem fullyQualifiedName_eq_spelled :
    normalise (ascii ['p', '/']) = normalise (ascii ['/', 'p']) ∧
      absoluteTopic (ascii ['n', '/']) (ascii ['t']) = absoluteTopic (ascii ['/', 'n']) (ascii ['t', '/']) := by
  have h₁ : getFullyQualifiedName (ascii ['p', '/']) (ascii ['n', '/']) (ascii ['t']) =
      some (ascii ['@', '/', 'p', '@', '/', 'n', '/', 't']) := by decide
  have h₂ : getFullyQualifiedName (ascii ['/', 'p']) (ascii ['/', 'n']) (ascii ['t', '/']) =
      some (ascii ['@', '/', 'p', '@', '/', 'n', '/', 't']) := by decide
  exact (fullyQualifiedName_eq_iff h₁ h₂).1.mp rfl

/-- `erase(0, find_last_of("@") + 1)`: a name without its partition. -/
def stripName (name : Str) : Str := (name.reverse.takeWhile fun c => c ≠ atSign).reverse

theorem stripName_append {s t : Str} (ht : atSign ∉ t) : stripName (s ++ atSign :: t) = t := by
  have hall : ∀ c ∈ t.reverse, decide (c ≠ atSign) = true := by
    intro c hc
    refine decide_eq_true ?_
    rintro rfl
    exact ht (List.mem_reverse.mp hc)
  unfold stripName
  rw [List.reverse_append, List.reverse_cons, List.append_assoc, List.takeWhile_append_of_pos hall,
    List.singleton_append, List.takeWhile_cons_of_neg (by simp), List.append_nil, List.reverse_reverse]

/-- A name without its partition is the absolute topic. -/
theorem stripName_of_fqn (h : getFullyQualifiedName partition ns topic = some name) :
    stripName name = absoluteTopic ns topic := by
  obtain ⟨⟨-, hns, htopic⟩, rfl⟩ := getFullyQualifiedName_eq_some_iff.mp h
  exact stripName_append (atSign_not_mem (clean_absoluteTopic hns htopic).1)

/-- An absolute topic is a topic, and whatever the namespace its name is the same. -/
theorem fqn_absoluteTopic (hp : isValidNamespace partition = true) (hns : isValidNamespace ns = true)
    (htopic : isValidTopic topic = true) {ns' : Str} (hns' : isValidNamespace ns' = true) :
    isValidTopic (absoluteTopic ns topic) = true ∧ getFullyQualifiedName partition ns' (absoluteTopic ns topic) =
      some (atSign :: normalise partition ++ atSign :: absoluteTopic ns topic) := by
  obtain ⟨hclean, hhead, hlast⟩ := clean_absoluteTopic hns htopic
  have hvalid : isValidTopic (absoluteTopic ns topic) = true := by
    refine (isValidTopic_iff _).mpr ⟨?_, ?_, hclean⟩
    · intro hnil
      rw [hnil] at hhead
      cases hhead
    · intro heq
      rw [heq] at hlast
      exact hlast rfl
  refine ⟨hvalid, getFullyQualifiedName_eq_some_iff.mpr ⟨⟨hp, hns', hvalid⟩, ?_⟩⟩
  conv_rhs => rw [absoluteTopic, if_pos hhead, dropTrailing_of_ne hlast]

/-- **Round trip**: a name without its partition, qualified again, is the name. -/
theorem fqn_stripName (h : getFullyQualifiedName partition ns topic = some name) :
    getFullyQualifiedName partition ns (stripName name) = some name := by
  rw [stripName_of_fqn h]
  obtain ⟨⟨hp, hns, htopic⟩, rfl⟩ := getFullyQualifiedName_eq_some_iff.mp h
  exact (fqn_absoluteTopic hp hns htopic hns).2

end Names

/-! ## Canonical form -/

section Canonical

/-- What a partition and a namespace may be, in terms of the characters. -/
structure Accepted (s : Str) : Prop where
  ne_slash : s ≠ [slash]
  no_tilde : tilde ∉ s
  no_blank : blank ∉ s
  no_atSign : atSign ∉ s
  no_doubleSlash : ¬ [slash, slash] <:+: s

/-- The name is made of the partition `p` and the topic `t` in their only form. -/
structure Canonical (partition p t name : Str) : Prop where
  name_eq : name = [atSign] ++ p ++ [atSign] ++ t
  count : name.count atSign = 2
  shape : p = [] ∨ (2 ≤ p.length ∧ p.head? = some slash ∧ p[1]? ≠ some slash ∧ p.getLast? ≠ some slash)
  valid : isValidTopic t = true
  head : t.head? = some slash
  last : t.getLast? ≠ some slash
  no_doubleSlash : ¬ [slash, slash] <:+: t
  again : ∀ ns, isValidNamespace ns = true → getFullyQualifiedName partition ns t = some name

/-- `GetFullyQualifiedName` with its output parameter: the result, and what is in `_name` afterwards. -/
def getFullyQualifiedNameInto (partition ns topic name : Str) : Bool × Str :=
  if !isValidNamespace partition || !isValidNamespace ns || !isValidTopic topic then (false, name)
  else
    let name := topicPart ns topic
    -- Add the partition prefix.
    (true, ([atSign] ++ partitionPart partition ++ [atSign]) ++ name)

variable {partition ns topic : Str}

theorem getFullyQualifiedNameInto_eq (name : Str) : getFullyQualifiedNameInto partition ns topic name =
    match getFullyQualifiedName partition ns topic with
    | none => (false, name)
    | some name' => (true, name') := by
  unfold getFullyQualifiedNameInto getFullyQualifiedName
  split_ifs
  · rfl
  · simp

theorem hasDoubleSlash_iff (s : Str) : hasDoubleSlash s = true ↔ [slash, slash] <:+: s := by
  induction s with
  | nil => simp [hasDoubleSlash]
  | cons c s ih =>
    cases s with
    | nil =>
      refine iff_of_false (by simp [hasDoubleSlash]) fun h => ?_
      exact absurd h.length_le (by simp)
    | cons d s =>
      rw [hasDoubleSlash, Bool.or_eq_true, ih, List.infix_cons_iff (a := c)]
      refine or_congr ?_ Iff.rfl
      rw [List.cons_prefix_cons, List.cons_prefix_cons]
      simp only [Bool.and_eq_true, decide_eq_true_eq, List.nil_prefix, and_true, @eq_comm _ slash]

theorem accepted_iff (s : Str) : Accepted s ↔ isValidNamespace s = true := by
  rw [isValidNamespace_iff, Clean, ← Bool.not_eq_true, hasDoubleSlash_iff]
  constructor
  · intro h
    refine ⟨h.ne_slash, fun c hc => ⟨?_, ?_, ?_⟩, h.no_doubleSlash⟩
    · rintro rfl
      exact h.no_tilde hc
    · rintro rfl
      exact h.no_blank hc
    · rintro rfl
      exact h.no_atSign hc
  · rintro ⟨hslash, hchars, hdouble⟩
    exact ⟨hslash, fun hc => (hchars _ hc).1 rfl, fun hc => (hchars _ hc).2.1 rfl, fun hc => (hchars _ hc).2.2 rfl,
      hdouble⟩

/-- The normal form of a partition is empty, or it has one slash at its start and none at its end. -/
theorem normalise_shape (h : isValidNamespace partition = true) : normalise partition = [] ∨
    (2 ≤ (normalise partition).length ∧ (normalise partition).head? = some slash ∧
      (normalise partition)[1]? ≠ some slash ∧ (normalise partition).getLast? ≠ some slash) := by
  by_cases hnil : partition = []
  · exact .inl (if_pos hnil)
  · have hb := inner_bare h hnil
    have hlast := (clean_normalise h).2
    rw [normalise, if_neg hnil] at hlast ⊢
    obtain ⟨c, b, hbare⟩ := List.exists_cons_of_ne_nil hb.ne_nil
    have hhead := hb.head
    rw [hbare] at hlast hhead ⊢
    exact .inr ⟨by simp, rfl, hhead, hlast⟩

/-- A name that is built is in canonical form. -/
theorem canonical_of_fqn {name : Str} (h : getFullyQualifiedName partition ns topic = some name) :
    Canonical partition (normalise partition) (absoluteTopic ns topic) name := by
  obtain ⟨⟨hp, hns, htopic⟩, rfl⟩ := getFullyQualifiedName_eq_some_iff.mp h
  obtain ⟨hclean, hhead, hlast⟩ := clean_absoluteTopic hns htopic
  have hpat := List.count_eq_zero.mpr (atSign_not_mem (clean_normalise hp).1)
  have htat := List.count_eq_zero.mpr (atSign_not_mem hclean)
  refine ⟨by simp, ?_, normalise_shape hp, (fqn_absoluteTopic hp hns htopic hns).1, hhead, hlast, ?_, ?_⟩
  · rw [List.cons_append, List.count_cons_self, List.count_append, List.count_cons_self, hpat, htat]
  · rw [← hasDoubleSlash_iff, hclean.2]
    simp
  · exact fun ns' hns' => (fqn_absoluteTopic hp hns htopic hns').2

/-- **Canonical form**: which pieces are accepted, and what name is built of them; a refusal leaves the output
alone. -/
theorem canonical_name (partition ns topic out : Str) :
    ((getFullyQualifiedNameInto partition ns topic out).1 = true ↔
      (Accepted partition ∧ Accepted ns ∧ Accepted topic) ∧ topic ≠ []) ∧
    ((getFullyQualifiedNameInto partition ns topic out).1 = true →
      ∃ p t, Canonical partition p t (getFullyQualifiedNameInto partition ns topic out).2) ∧
    ((getFullyQualifiedNameInto partition ns topic out).1 = false →
      (getFullyQualifiedNameInto partition ns topic out).2 = out) := by
  have haccepted : (getFullyQualifiedName partition ns topic).isSome = true ↔
      (Accepted partition ∧ Accepted ns ∧ Accepted topic) ∧ topic ≠ [] := by
    simp only [Option.isSome_iff_exists, getFullyQualifiedName_eq_some_iff, accepted_iff, isValidTopic,
      Bool.and_eq_true, Bool.not_eq_true', List.isEmpty_eq_false_iff, exists_and_left]
    tauto
  rw [getFullyQualifiedNameInto_eq]
  cases hname : getFullyQualifiedName partition ns topic with
  | none =>
    rw [hname] at haccepted
    exact ⟨haccepted, by simp, fun _ => rfl⟩
  | some name =>
    rw [hname] at haccepted
    exact ⟨haccepted, fun _ => ⟨_, _, canonical_of_fqn hname⟩, by simp⟩

end Canonical

end TopicUtils

end IgnTransport
