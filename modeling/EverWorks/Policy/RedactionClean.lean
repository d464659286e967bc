import EverWorks.Policy.Redaction

/-!
In credential mode no string and no key of the result has a long secret in it or is a short one, whatever the
secrets, as long as none of them can touch a token that stands for one.
-/

namespace EverWorks.Policy
open Lib Lib.Replace List

/-- No secret can touch a token. -/
def Untouched (credentials : List Credential) : Prop :=
  ∀ entry ∈ credentials, ∀ other ∈ credentials, ¬ Overlaps entry.2 (credentialRedactionToken other.1)

theorem token_length (key : Utf16) : 16 ≤ (credentialRedactionToken key).length := by
  have head : (ascii "[redacted:cred.").length = 15 := by decide
  have tail : (ascii "]").length = 1 := by decide
  rw [credentialRedactionToken, length_append, length_append, head, tail]
  omega

theorem Untouched.solid {credentials : List Credential} (untouched : Untouched credentials) {entry : Credential}
    (member : entry ∈ credentials) : entry.2 ≠ [] := by
  intro blank
  apply untouched entry member entry member
  have long := token_length entry.1
  refine ⟨(credentialRedactionToken entry.1).take 1, (credentialRedactionToken entry.1).drop 1, [], [], ?_, ?_, ?_⟩
  · rw [blank, append_nil, take_append_drop, nil_append, append_nil]
  · simp
    omega
  · simp
    omega

namespace Redactor

section
variable {redactor : Redactor}

structure Clean (redactor : Redactor) (text : Utf16) : Prop where
  entries : ∀ entry ∈ redactor.entries, ¬ entry.2 <:+: text
  short : ∀ entry ∈ redactor.short, text ≠ entry.2

structure Sane (redactor : Redactor) : Prop where
  untouched : Untouched (redactor.entries ++ redactor.short)
  brief : ∀ entry ∈ redactor.short, entry.2.length < minRedactableSecretLength

theorem Sane.of {credentials : List Credential} {mode : CredentialRedactionMode}
    (untouched : Untouched credentials) : Sane (Redactor.of credentials mode) := by
  have known : ∀ entry ∈ (Redactor.of credentials mode).entries ++ (Redactor.of credentials mode).short,
      entry ∈ credentials := by
    intro entry member
    rcases mem_append.mp member with long | short
    · exact (mem_filter.mp (mem_filter.mp ((mem_insertionSort _).mp long)).1).1
    · simp only [Redactor.of] at short
      split at short
      · exact (mem_filter.mp (mem_filter.mp short).1).1
      · cases short
  refine ⟨fun entry member other member' => untouched _ (known _ member) _ (known _ member'), ?_⟩
  intro entry member
  simp only [Redactor.of] at member
  split at member
  · simpa using (mem_filter.mp member).2
  · cases member

theorem token_clean (sane : Sane redactor) {entry : Credential}
    (member : entry ∈ redactor.entries ++ redactor.short) : Clean redactor (credentialRedactionToken entry.1) where
  entries other member' :=
    have inside := mem_append_left _ member'
    not_infix_of_apart (sane.untouched.solid inside) (sane.untouched other inside entry member)
  short other member' same := by
    have brief := sane.brief other member'
    have long := token_length entry.1
    rw [same, minRedactableSecretLength] at *
    omega

theorem scrubEntries_cons (entry : Credential) (entries : List Credential) (input : Utf16) :
    scrubEntries (entry :: entries) input = scrubEntries entries
      (if entry.2 <:+: input then replaceAll entry.2 (credentialRedactionToken entry.1) input else input) := rfl

variable {entries : List Credential}

theorem scrubEntries_keeps {word : Utf16} (solid : word ≠ [])
    (solids : ∀ entry ∈ entries, entry.2 ≠ [])
    (apart : ∀ entry ∈ entries, ¬ Overlaps word (credentialRedactionToken entry.1)) {input : Utf16}
    (absent : ¬ word <:+: input) : ¬ word <:+: scrubEntries entries input := by
  induction entries generalizing input with
  | nil => exact absent
  | cons entry entries ih =>
    rw [scrubEntries_cons]
    apply ih (fun e member => solids e (mem_cons_of_mem _ member))
      (fun e member => apart e (mem_cons_of_mem _ member))
    split
    · intro inside
      exact absent (infix_of_replaceAll (solids entry mem_cons_self) solid
        (apart entry mem_cons_self) inside)
    · exact absent

theorem scrubEntries_free (untouched : Untouched entries) (input : Utf16) :
    ∀ entry ∈ entries, ¬ entry.2 <:+: scrubEntries entries input := by
  induction entries generalizing input with
  | nil => exact fun _ member => nomatch member
  | cons first entries ih =>
    have rest : Untouched entries := fun entry member other member' =>
      untouched entry (mem_cons_of_mem _ member) other (mem_cons_of_mem _ member')
    rintro entry (_ | ⟨_, member⟩)
    · rw [scrubEntries_cons]
      refine scrubEntries_keeps (untouched.solid mem_cons_self) (fun e inside => rest.solid inside)
        (fun e inside => untouched first mem_cons_self e (mem_cons_of_mem _ inside)) ?_
      split
      · exact not_infix_replaceAll (untouched.solid mem_cons_self)
          (untouched first mem_cons_self first mem_cons_self)
      · assumption
    · rw [scrubEntries_cons]
      exact ih rest _ entry member

theorem scrubEntries_long (solids : ∀ entry ∈ entries, entry.2 ≠ []) (input : Utf16) :
    scrubEntries entries input = input ∨ 16 ≤ (scrubEntries entries input).length := by
  have grows : ∀ (entries : List Credential) (input : Utf16), (∀ entry ∈ entries, entry.2 ≠ []) →
      16 ≤ input.length → 16 ≤ (scrubEntries entries input).length := by
    intro entries
    induction entries with
    | nil => exact fun _ _ long => long
    | cons entry entries ih =>
      intro input solids long
      rw [scrubEntries_cons]
      apply ih _ fun e member => solids e (mem_cons_of_mem _ member)
      split
      · rename_i inside
        have := (new_infix_replaceAll (credentialRedactionToken entry.1)
          (solids entry mem_cons_self) inside).length_le
        have := token_length entry.1
        omega
      · exact long
  induction entries generalizing input with
  | nil => exact .inl rfl
  | cons entry entries ih =>
    have rest := fun e member => solids e (mem_cons_of_mem _ member)
    rw [scrubEntries_cons]
    split
    · rename_i inside
      right
      apply grows _ _ rest
      have := (new_infix_replaceAll (credentialRedactionToken entry.1)
        (solids entry mem_cons_self) inside).length_le
      have := token_length entry.1
      omega
    · exact ih rest input

theorem scrubString_clean (sane : Sane redactor) (input : Utf16) : Clean redactor (redactor.scrubString input) := by
  rw [scrubString]
  split
  · rename_i entry found
    exact token_clean sane (mem_append_right _ (mem_of_find?_eq_some found))
  · rename_i absent
    have untouched : Untouched redactor.entries := fun entry member other member' =>
      sane.untouched entry (mem_append_left _ member) other (mem_append_left _ member')
    refine ⟨scrubEntries_free untouched input, fun entry member same => ?_⟩
    rcases scrubEntries_long (fun e inside => untouched.solid inside) input with unchanged | long
    · have := find?_eq_none.mp absent entry member
      rw [unchanged] at same
      simp [same] at this
    · have brief := sane.brief entry member
      rw [same] at long
      rw [minRedactableSecretLength] at brief
      omega

theorem clean_of_leakedKeyIn_none {text : Utf16} (quiet : redactor.leakedKeyIn text = none) :
    Clean redactor text := by
  rw [leakedKeyIn, Option.map_eq_none_iff, Option.or_eq_none_iff] at quiet
  obtain ⟨short, long⟩ := quiet
  exact ⟨fun entry member => by simpa using find?_eq_none.mp long entry member,
    fun entry member => by simpa using find?_eq_none.mp short entry member⟩

theorem key_of_leakedKeyIn {text key : Utf16} (leaked : redactor.leakedKeyIn text = some key) :
    ∃ entry ∈ redactor.entries ++ redactor.short, entry.1 = key := by
  rw [leakedKeyIn, Option.map_eq_some_iff] at leaked
  obtain ⟨entry, found, rfl⟩ := leaked
  rcases Option.or_eq_some_iff.mp found with short | ⟨-, long⟩
  · exact ⟨entry, mem_append_right _ (mem_of_find?_eq_some short), rfl⟩
  · exact ⟨entry, mem_append_left _ (mem_of_find?_eq_some long), rfl⟩

variable {node : JsonValue}

theorem mem_push {nodes stack : List JsonValue} :
    node ∈ push nodes stack ↔ node ∈ nodes ∨ node ∈ stack := by
  rw [push, mem_append, mem_reverse]

theorem clean_of_findLeakedKey_none {stack : List JsonValue} (quiet : redactor.findLeakedKey stack = none)
    (member : node ∈ stack) {text : Utf16} (has : node.Has text) : Clean redactor text := by
  fun_induction findLeakedKey redactor stack generalizing node with
  | case1 => cases member
  | case2 => cases quiet
  | case3 stack text' unleaked ih =>
    rcases mem_cons.mp member with rfl | deeper
    · cases has
      exact clean_of_leakedKeyIn_none unleaked
    · exact ih quiet deeper has
  | case4 stack items ih =>
    rcases mem_cons.mp member with rfl | deeper
    · cases has with
      | item inside has => exact ih quiet (mem_push.mpr (.inl inside)) has
    · exact ih quiet (mem_push.mpr (.inr deeper)) has
  | case5 => cases quiet
  | case6 stack fields unleaked ih =>
    rcases mem_cons.mp member with rfl | deeper
    · cases has with
      | key inside => exact clean_of_leakedKeyIn_none (findSome?_eq_none_iff.mp unleaked _ inside)
      | value inside has =>
        exact ih quiet (mem_push.mpr (.inl (mem_map.mpr ⟨_, inside, rfl⟩))) has
    · exact ih quiet (mem_push.mpr (.inr deeper)) has
  | case7 stack ih | case8 stack _ ih | case9 stack _ ih =>
    rcases mem_cons.mp member with rfl | deeper
    · cases has
    · exact ih quiet deeper has

theorem key_of_findLeakedKey {stack : List JsonValue} {key : Utf16}
    (leaked : redactor.findLeakedKey stack = some key) :
    ∃ entry ∈ redactor.entries ++ redactor.short, entry.1 = key := by
  fun_induction findLeakedKey redactor stack with
  | case1 => cases leaked
  | case2 stack text found known => exact key_of_leakedKeyIn (leaked ▸ known)
  | case5 stack fields found known =>
    obtain ⟨field, -, known⟩ := exists_of_findSome?_eq_some known
    exact key_of_leakedKeyIn (leaked ▸ known)
  | case3 _ _ _ ih | case4 _ _ ih | case6 _ _ _ ih | case7 _ ih | case8 _ _ ih | case9 _ _ ih => exact ih leaked

theorem tooDeep_clean (sane : Sane redactor) {text : Utf16}
    (has : (redactor.tooDeep node).Has text) : Clean redactor text := by
  rw [tooDeep] at has
  split at has
  · rename_i quiet
    exact clean_of_findLeakedKey_none quiet mem_cons_self has
  · rename_i key leaked
    cases has
    obtain ⟨entry, member, rfl⟩ := key_of_findLeakedKey leaked
    exact token_clean sane member

theorem isOutOfReach_strict (strict : redactor.strict = true) (level : Nat) : redactor.isOutOfReach level = false := by
  rw [isOutOfReach, strict, Bool.not_true, Bool.false_and]

mutual

theorem walk_clean (sane : Sane redactor) (strict : redactor.strict = true) (level : Nat) (node : JsonValue)
    {text : Utf16} (has : (redactor.walk level node).Has text) : Clean redactor text := by
  cases node with
  | null | bool | number => cases has
  | string input =>
    rw [walk, isOutOfReach_strict strict, if_neg Bool.false_ne_true] at has
    cases has
    exact scrubString_clean sane input
  | array items =>
    rw [walk] at has
    split at has
    · exact tooDeep_clean sane has
    · rw [isOutOfReach_strict strict, if_neg Bool.false_ne_true] at has
      cases has with
      | item inside has => exact walkItems_clean sane strict (level + 1) items inside has
  | object fields =>
    rw [walk] at has
    split at has
    · exact tooDeep_clean sane has
    · rw [isOutOfReach_strict strict, if_neg Bool.false_ne_true] at has
      have clean := walkFields_clean sane strict (level + 1) [] fields (fun _ member => nomatch member)
      cases has with
      | key inside => exact (clean _ inside).1
      | value inside has => exact (clean _ inside).2 has

theorem walkItems_clean (sane : Sane redactor) (strict : redactor.strict = true) (level : Nat)
    (items : List JsonValue) {item : JsonValue} (member : item ∈ redactor.walkItems level items) {text : Utf16}
    (has : item.Has text) : Clean redactor text := by
  cases items with
  | nil => cases member
  | cons first items =>
    rw [walkItems] at member
    rcases mem_cons.mp member with rfl | deeper
    · exact walk_clean sane strict level first has
    · exact walkItems_clean sane strict level items deeper has

theorem walkFields_clean (sane : Sane redactor) (strict : redactor.strict = true) (level : Nat)
    (out fields : JsonRecord)
    (sound : ∀ entry ∈ out, Clean redactor entry.1 ∧ ∀ {text}, entry.2.Has text → Clean redactor text) :
    ∀ entry ∈ redactor.walkFields level out fields,
      Clean redactor entry.1 ∧ ∀ {text}, entry.2.Has text → Clean redactor text := by
  cases fields with
  | nil => exact sound
  | cons field fields =>
    obtain ⟨key, item⟩ := field
    rw [walkFields]
    refine walkFields_clean sane strict level _ fields fun entry member => ?_
    rcases Json.mem_assign member with inside | rfl
    · exact sound entry inside
    · refine ⟨?_, fun has => walk_clean sane strict level item has⟩
      rw [strict, if_pos rfl]
      exact scrubString_clean sane key

end

end

end Redactor

/-- What is long is nowhere in the result, what is short is no text of it. -/
theorem redactCredentialValues_clean {value : JsonValue} {credentials : List Credential}
    (untouched : Untouched credentials) {text : Utf16}
    (has : (redactCredentialValues value credentials .credential).Has text) :
    ∀ entry ∈ credentials,
      (minRedactableSecretLength ≤ entry.2.length → ¬ entry.2 <:+: text) ∧
        (entry.2.length < minRedactableSecretLength → text ≠ entry.2) := by
  intro entry member
  have solid := untouched.solid member
  have long (le : minRedactableSecretLength ≤ entry.2.length) :
      entry ∈ (Redactor.of credentials .credential).entries :=
    (mem_insertionSort _).mpr (mem_filter.mpr ⟨mem_filter.mpr ⟨member, by simpa using solid⟩,
      by simpa using le⟩)
  have short (lt : entry.2.length < minRedactableSecretLength) :
      entry ∈ (Redactor.of credentials .credential).short :=
    mem_filter.mpr ⟨mem_filter.mpr ⟨member, by simpa using solid⟩, by simpa using lt⟩
  have clean : Redactor.Clean (Redactor.of credentials .credential) text := by
    rw [redactCredentialValues] at has
    split at has
    · rename_i nothing
      rw [Bool.and_eq_true, List.isEmpty_iff, List.isEmpty_iff] at nothing
      exact ⟨fun _ inside => (by rw [nothing.1] at inside; cases inside),
        fun _ inside => (by rw [nothing.2] at inside; cases inside)⟩
    · exact Redactor.walk_clean (.of untouched) rfl 0 value has
  exact ⟨fun le => clean.entries entry (long le), fun lt => clean.short entry (short lt)⟩

theorem redacted_header_clean :
    ¬ ascii "0123456789" <:+: ascii "Bearer [redacted:cred.k]" :=
  (@redactCredentialValues_clean (.string (ascii "Bearer 0123456789")) [(ascii "k", ascii "0123456789")]
    (fun entry member other member' touch => by
      obtain rfl := mem_singleton.mp member
      obtain rfl := mem_singleton.mp member'
      obtain ⟨c, inside, inside'⟩ := mem_of_overlaps (by decide) (by decide) touch
      have apart : (ascii "0123456789").all fun c => decide (c ∉ credentialRedactionToken (ascii "k")) := by
        decide
      exact of_decide_eq_true (all_eq_true.mp apart c inside) inside')
    _ (by
      have scrubbed : (Redactor.of [(ascii "k", ascii "0123456789")] .credential).scrubString
          (ascii "Bearer 0123456789") = ascii "Bearer [redacted:cred.k]" := by decide
      rw [redactCredentialValues, if_neg (by decide), Redactor.walk, if_neg (by decide), scrubbed]
      exact .string)
    _ mem_cons_self).1 (by decide)

end EverWorks.Policy
