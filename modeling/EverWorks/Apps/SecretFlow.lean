import EverWorks.Apps.TemplateCycles
import EverWorks.Lib.Propagation

/-!
An entry that reads a secret must be secret itself, and what it reads must be there in its own phases. Both are checked on what an
entry's template names; secrecy has been propagated over all templates before, the phase has not.
-/

namespace EverWorks.Apps
open Lib List Relation

inductive AppSpecEnvPhase | build | runtime | both
  deriving DecidableEq

/-- An entry with what its secrecy and its phase are read off; of a `generate` block only whether there is one. -/
structure AppSpecEnvDeclaration extends AppSpecEnvEntry where
  secret : Option Bool := none
  generate : Bool := false
  phase : Option AppSpecEnvPhase := none

def envPhaseOf (entry : AppSpecEnvDeclaration) : AppSpecEnvPhase := entry.phase.getD .runtime

def envPhasesCompatible (reader source : AppSpecEnvPhase) : Bool :=
  let readerNeedsRuntime := reader = .runtime ∨ reader = .both
  let readerNeedsBuild := reader = .build ∨ reader = .both
  let sourceHasRuntime := source = .runtime ∨ source = .both
  let sourceHasBuild := source = .build ∨ source = .both
  (!readerNeedsRuntime || sourceHasRuntime) && (!readerNeedsBuild || sourceHasBuild)

def envEntryDeclaredSecret (entry : AppSpecEnvDeclaration) : Bool := entry.secret = some true || entry.generate

inductive FlowProblem
  | secretReferenceNotSecret (pointer : String) (entry : Utf16)
  | phaseMismatch (pointer : String) (entry reference : Utf16)

/-- The entries and their reads in the order of the names' first declarations, which are the ones that count. -/
def readsByFirst : List AppSpecEnvDeclaration → List (Utf16 × List Utf16)
  | [] => []
  | entry :: rest =>
    match entry.name with
    | none => readsByFirst rest
    | some name => (name, templateReads entry.toAppSpecEnvEntry) :: (readsByFirst rest).filter (·.1 != name)

section
variable (entries : List AppSpecEnvDeclaration)

def declaration (name : Utf16) : Option AppSpecEnvDeclaration := entries.find? (·.name == some name)

def declaredSecretByName (name : Utf16) : Bool := (declaration entries name).elim false envEntryDeclaredSecret

def secretByName : Utf16 → Bool :=
  Propagation.passes (readsByFirst entries) (readsByFirst entries).length (declaredSecretByName entries)

/-- The entries a template names, but for the entry itself. -/
def envReferences (entry : AppSpecEnvDeclaration) (name : Utf16) : List Utf16 :=
  (entry.template.elim [] fun template => tokenizeTemplate template.length template).filter fun reference =>
    (declaration entries reference).isSome && reference != name

def flowProblems (listed : AppSpecEnvDeclaration × Nat) : List FlowProblem :=
  let (entry, index) := listed
  match entry.name with
  | none => []
  | some name =>
    let references := envReferences entries entry name
    let firstSecret := references.find? (secretByName entries)
    let firstPhase := references.find? fun reference =>
      (declaration entries reference).any fun source => !envPhasesCompatible (envPhaseOf entry) (envPhaseOf source)
    (if firstSecret.isSome && entry.secret != some true then
      [.secretReferenceNotSecret (AppSpec.envPointer index "secret") name] else []) ++
      firstPhase.toList.map (.phaseMismatch (AppSpec.envPointer index "template") name)

/-- The template of the entry of a name reads another name. -/
def ReadsEntry (reader read : Utf16) : Prop :=
  ∃ entry, declaration entries reader = some entry ∧ read ∈ templateReads entry.toAppSpecEnvEntry

end

variable {entries : List AppSpecEnvDeclaration} {name : Utf16}

theorem mem_readsByFirst {reads : List Utf16} : (name, reads) ∈ readsByFirst entries ↔
    ∃ entry, declaration entries name = some entry ∧ reads = templateReads entry.toAppSpecEnvEntry := by
  induction entries with
  | nil => simp [readsByFirst, declaration]
  | cons first rest ih =>
    rw [declaration] at ih ⊢
    cases named : first.name with
    | none => rw [readsByFirst, named, find?_cons_of_neg (by simp [named]), ih]
    | some known =>
      by_cases same : known = name
      · rw [find?_cons_of_pos (by simp [named, same]), readsByFirst, named]
        simp [same]
      · rw [find?_cons_of_neg (by simpa [named] using same), readsByFirst, named, mem_cons, mem_filter, ih]
        simp [Ne.symm same]

theorem reads_iff {reader read : Utf16} :
    Propagation.Reads (readsByFirst entries) reader read ↔ ReadsEntry entries reader read := by
  constructor
  · rintro ⟨⟨_, reads⟩, member, rfl, inside⟩
    obtain ⟨entry, declares, rfl⟩ := mem_readsByFirst.mp member
    exact ⟨entry, declares, inside⟩
  · rintro ⟨entry, declares, inside⟩
    exact ⟨(reader, _), mem_readsByFirst.mpr ⟨entry, declares, rfl⟩, rfl, inside⟩

/-- After at most as many passes as there are entries exactly those are secret that read, through templates in any number and
round any circle, an entry declared secret. -/
theorem secretByName_iff (entries : List AppSpecEnvDeclaration) (name : Utf16) : secretByName entries name = true ↔
    ∃ source, declaredSecretByName entries source = true ∧ ReflTransGen (ReadsEntry entries) name source := by
  have same : Propagation.Reads (readsByFirst entries) = ReadsEntry entries :=
    funext fun _ => funext fun _ => propext reads_iff
  rw [secretByName, Propagation.passes_iff, same]

theorem mem_foldl_pushNew {front list : List Utf16} : name ∈ list.foldl pushNew front ↔ name ∈ front ∨ name ∈ list := by
  induction list generalizing front with
  | nil => simp
  | cons first list ih =>
    rw [foldl_cons, ih, pushNew, mem_cons]
    split
    · rename_i known
      exact ⟨Or.imp_right .inr, fun member => by rcases member with h | rfl | h <;> simp_all⟩
    · simp [or_assoc]

theorem compatible_trans {a b c : AppSpecEnvPhase} (first : envPhasesCompatible a b = true)
    (second : envPhasesCompatible b c = true) : envPhasesCompatible a c = true := by
  revert first second
  cases a <;> cases b <;> cases c <;> decide

/-- What no reported problem says of one entry that a template names. -/
theorem quiet_reads (quiet : ∀ listed ∈ entries.zipIdx, flowProblems entries listed = []) {reader read : Utf16}
    {reading source : AppSpecEnvDeclaration} (declares : declaration entries reader = some reading)
    (reads : read ∈ templateReads reading.toAppSpecEnvEntry) (other : read ≠ reader)
    (declares' : declaration entries read = some source) :
    (secretByName entries read = true → reading.secret = some true) ∧
      envPhasesCompatible (envPhaseOf reading) (envPhaseOf source) = true := by
  have named : reading.name = some reader := by simpa using find?_some declares
  obtain ⟨index, there⟩ := mem_iff_getElem?.mp (mem_of_find?_eq_some declares)
  have none := quiet (reading, index) (mk_mem_zipIdx_iff_getElem?.mpr there)
  have named' : read ∈ envReferences entries reading reader := by
    refine mem_filter.mpr ⟨?_, by simp [declares', other]⟩
    unfold templateReads at reads
    cases template : reading.template with
    | none => simp [template] at reads
    | some text =>
      rw [template] at reads
      exact (mem_foldl_pushNew.mp reads).resolve_left not_mem_nil
  simp only [flowProblems, named, append_eq_nil_iff, map_eq_nil_iff, Option.toList_eq_nil_iff] at none
  constructor
  · intro secret
    have found : ((envReferences entries reading reader).find? (secretByName entries)).isSome = true :=
      find?_isSome.mpr ⟨read, named', secret⟩
    by_contra open_
    simp [found, open_] at none
  · simpa [declares'] using find?_eq_none.mp none.2 read named'

/-- Where no problem of either kind is reported, an entry that a secret reaches through templates is itself declared with
`secret: true`, and all that reaches an entry is there in the phases of that entry. -/
theorem flows_stay (quiet : ∀ listed ∈ entries.zipIdx, flowProblems entries listed = []) {reader source : Utf16}
    {reading written : AppSpecEnvDeclaration} (declares : declaration entries reader = some reading)
    (declares' : declaration entries source = some written) (path : ReflTransGen (ReadsEntry entries) reader source) :
    envPhasesCompatible (envPhaseOf reading) (envPhaseOf written) = true ∧
      (reader ≠ source → envEntryDeclaredSecret written = true → reading.secret = some true) := by
  induction path using ReflTransGen.head_induction_on generalizing reading with
  | refl =>
    obtain rfl := Option.some.inj (declares.symm.trans declares')
    refine ⟨?_, fun apart => absurd rfl apart⟩
    cases envPhaseOf reading <;> rfl
  | @head reader next reads path ih =>
    obtain ⟨entry, declared, inside⟩ := reads
    obtain rfl := Option.some.inj (declares.symm.trans declared)
    obtain ⟨middle, known⟩ : ∃ middle, declaration entries next = some middle := by
      rcases ReflTransGen.cases_head path with rfl | ⟨_, ⟨middle, known, -⟩, -⟩
      · exact ⟨written, declares'⟩
      · exact ⟨middle, known⟩
    by_cases same : next = reader
    · subst same
      exact ih declares
    · obtain ⟨secret, compatible⟩ := quiet_reads quiet declares inside same known
      refine ⟨compatible_trans compatible (ih known).1, fun _ declaredSecret => secret ?_⟩
      exact (secretByName_iff entries next).mpr ⟨source, by rw [declaredSecretByName, declares']; exact declaredSecret, path⟩

/-- `B` and `C` carry on the secret `A`. -/
def carried : List AppSpecEnvDeclaration :=
  [{ name := some (ascii "A"), generate := true },
    { name := some (ascii "B"), template := some (ascii "\x7b\x7benv.A\x7d\x7d"), secret := some true },
    { name := some (ascii "C"), template := some (ascii "\x7b\x7benv.B\x7d\x7d"), secret := some true }]

theorem carried_flows : (declaration carried (ascii "C")).bind (·.secret) = some true := by
  have first : ReadsEntry carried (ascii "C") (ascii "B") := ⟨_, rfl, by decide +kernel⟩
  have second : ReadsEntry carried (ascii "B") (ascii "A") := ⟨_, rfl, by decide +kernel⟩
  obtain ⟨reading, declares⟩ : ∃ reading, declaration carried (ascii "C") = some reading := ⟨_, rfl⟩
  rw [declares, Option.bind_some]
  have quiet : ∀ listed ∈ carried.zipIdx, flowProblems carried listed = [] := by decide +kernel
  exact (flows_stay quiet declares rfl (.head first (.single second))).2 (by decide) rfl

end EverWorks.Apps
