import Mathlib.Data.List.Forall2
import VmHandler.Command.Run
import VmHandler.Proofs.Alike
import VmHandler.Proofs.Reload
import VmHandler.Proofs.ValueTexts

/-!
# Reports that agree

The three commands look at the types of a module in three ways: the list of types asks each type for
its handler, the list of candidates scans the module, and the command that finds the handler searches
it under a policy. A program that reads what the commands write finds that their reports fit together:
a candidate stands at the position of a type that is listed with a handler, and with the same tokens;
and what the search says about the handler and about further candidates is what the rows of the
candidates say.
-/

set_option autoImplicit false

namespace VmHandler

/-! ## Reading a document -/

namespace Json.Document

/-- The value of a key. -/
def field? (key : String) : Document → Option Document
  | .object entries => entries.lookup (some key)
  | _ => none

/-- Whether a key has a value other than the one for no value. -/
def isSet (key : String) (d : Document) : Bool :=
  match d.field? key with
  | none => false
  | some .null => false
  | some _ => true

/-- Whether a key has a given text. -/
def hasText (key text : String) (d : Document) : Bool :=
  match d.field? key with
  | some (.text content) => content = some text
  | _ => false

end Json.Document

namespace Module

/-- A file is loaded if its contents are. -/
theorem ofSource_file (path : String) {contents : Json.Octets} {m : Module}
    (h : ofOctets contents = .ok m) : ofSource path (.file contents) = .ok m := by
  cases contents with
  | nil => contradiction
  | cons b bs =>
      have hnonempty : ¬List.isEmpty (b :: bs) = true := Bool.false_ne_true
      simp only [ofSource, if_neg hnonempty, h]

end Module

namespace Command

open VmHandler.Json

/-! ## Rows -/

/-- Rows under a name, with their number. -/
def rowsDocument (name : String) (rows : List Document) : Document :=
  .object [(some name, .list rows), (some "count", .number (.natural rows.length))]

/-- The rows of candidates. -/
def candidateRows (cs : List Candidate) : List Document :=
  cs.map fun c => (CandidateEntry.ofCandidate c).toValue.document

/-- The rows of types. -/
def typeRows (ts : List TypeDecl) : List Document :=
  ts.map fun t => (TypeEntry.ofType t).toValue.document

/-- A row of the candidates and a row of the types, with its position, that tell of one handler. -/
structure SameHandler (row : Document) (p : Document × Nat) : Prop where
  index : row.field? "index" = some (.number (.natural p.2))
  type : row.field? "vm_type" = p.1.field? "token"
  handler : ∃ method signature,
    row.field? "handler" = some (.text (some method)) ∧
    row.field? "signature" = some (.text (some signature)) ∧
    p.1.field? "handler" = some (.text (some (method ++ " (" ++ signature ++ ")")))

theorem field?_handler_typeRow (t : TypeDecl) :
    (TypeEntry.ofType t).toValue.document.field? "handler" =
      some (textOrNull ((t.handler? Signature.known).map fun found =>
        found.1.token.text ++ " (" ++ found.2.name ++ ")")).document := by
  cases h : t.handler? Signature.known with
  | none =>
      have hnone : (TypeEntry.ofType t).handlerText? = none := by
        simp only [TypeEntry.handlerText?, TypeEntry.ofType, h, Option.map_none]
      exact congrArg (fun text => some (textOrNull text).document) hnone
  | some found =>
      have hsome : (TypeEntry.ofType t).handlerText? =
          some (found.1.token.text ++ " (" ++ found.2.name ++ ")") := by
        simp only [TypeEntry.handlerText?, TypeEntry.ofType, h, Option.map_some]
        rfl
      exact congrArg (fun text => some (textOrNull text).document) hsome

theorem isSet_handler_typeRow (t : TypeDecl) :
    (TypeEntry.ofType t).toValue.document.isSet "handler" =
      (t.handler? Signature.known).isSome := by
  unfold Document.isSet
  rw [field?_handler_typeRow]
  cases t.handler? Signature.known <;> rfl

/-- Candidates are the types that are listed with a handler, in the same order. -/
theorem sameHandler_rows (s : Search) (h : s.signatures = Signature.known) (ts : List TypeDecl)
    (index : Nat) :
    List.Forall₂ SameHandler (candidateRows (s.scanFrom index ts))
      (((typeRows ts).zipIdx index).filter fun p => p.1.isSet "handler") := by
  -- scan and numbering start at the same position, which the next type moves on in both
  induction ts generalizing index with
  | nil => exact .nil
  | cons t ts ih =>
      have hset := isSet_handler_typeRow t
      have hshown := field?_handler_typeRow t
      rw [typeRows, List.map_cons, ← typeRows, List.zipIdx_cons, List.filter_cons, hset,
        Search.scanFrom, Search.candidate?, h]
      cases hhandler : t.handler? Signature.known with
      | none => exact ih (index + 1)
      | some found =>
          rw [hhandler] at hshown
          exact .cons ⟨rfl, rfl, found.1.token.text, found.2.name, rfl, rfl, hshown⟩ (ih (index + 1))

/-- The rows of one namespace are those of its types among the rows of all types. -/
theorem typeRows_filter (ts : List TypeDecl) (p : TypeDecl → Bool) :
    typeRows (ts.filter p) = ((ts.zip (typeRows ts)).filter fun q => p q.1).map Prod.snd := by
  induction ts with
  | nil => rfl
  | cons t ts ih =>
      rw [typeRows, typeRows, List.map_cons, List.zip_cons_cons, List.filter_cons, List.filter_cons,
        ← typeRows, ← typeRows]
      cases p t with
      | true => exact congrArg (List.cons _) ih
      | false => exact ih

theorem typeRows_filter_sublist (ts : List TypeDecl) (p : TypeDecl → Bool) :
    (typeRows (ts.filter p)).Sublist (typeRows ts) :=
  List.filter_sublist.map _

/-! ## The report of a search -/

/-- The report of a search under a policy, and the exit code, as the rows of the candidates want
them. -/
structure AgreesWith (rows : List Document) (policy : Policy) (report : Document)
    (code : Nat) : Prop where
  either : report.isSet "handler" = !report.isSet "error"
  code_eq_zero_iff : code = 0 ↔ report.isSet "handler" = true
  selects : report.isSet "handler" = true →
    ∃ handler row events e,
      report.field? "handler" = some handler ∧ rows.head? = some row ∧
      handler.field? "vm_type" = row.field? "vm_type" ∧
      handler.field? "handler" = row.field? "handler" ∧
      handler.field? "signature" = row.field? "signature" ∧
      report.field? "events" = some (.list events) ∧
      events.filter (Document.hasText "kind" "handler_found") = [e] ∧
      e.field? "vm_type" = handler.field? "vm_type" ∧
      e.field? "method" = handler.field? "handler"
  warns : policy = .report →
    ∃ warnings events,
      report.field? "warnings" = some (.list warnings) ∧
      report.field? "events" = some (.list events) ∧
      List.Forall₂ (fun warning row => ∃ e ∈ events, e.field? "message" = some warning ∧
        e.field? "vm_type" = row.field? "vm_type" ∧
        e.field? "method" = row.field? "handler") warnings rows.tail
  rejects : policy = .reject → (code = 0 ↔ rows.length = 1)
  finds : policy ≠ .reject → (code = 0 ↔ rows ≠ [])

/-- An event in a report. -/
def eventRow (e : Event) : Document := e.toValue.document

theorem hasText_kind_eventRow (e : Event) :
    (eventRow e).hasText "kind" "handler_found" = decide (e.kind = .handlerFound) := by
  obtain ⟨kind, type, method, message⟩ := e
  cases kind <;> rfl

section Found

variable (path : String) (m : Module) (r : Except Search.Failure Selection) (log : EventLog)

theorem field?_events_report :
    (LocateReport.ofDiscovery path m r log).toValue.document.field? "events" =
      some (.list (log.toList.map eventRow)) :=
  congrArg some (Value.document_list_map Event.toValue log.toList)

theorem field?_warnings_report :
    (LocateReport.ofDiscovery path m r log).toValue.document.field? "warnings" =
      some (.list ((log.toList.filter (·.kind.level = .warn)).map fun e =>
        .text (some e.message))) := by
  have hmessages := List.map_map (f := Event.message) (g := fun s => Document.text (some s))
    (l := log.toList.filter (·.kind.level = .warn))
  exact congrArg some ((Value.document_list_map .text _).trans (congrArg Document.list hmessages))

end Found

theorem warns_of_outcome {m : Module} {cs : List Candidate} {r : Except Search.Failure Selection}
    {es : List Event} (h : Search.Outcome .report m cs r es) :
    List.Forall₂ (fun warning row => ∃ e ∈ es.map eventRow,
        e.field? "message" = some warning ∧
        e.field? "vm_type" = row.field? "vm_type" ∧
        e.field? "method" = row.field? "handler")
      ((es.filter (·.kind.level = .warn)).map fun e => .text (some e.message))
      (candidateRows cs).tail := by
  cases h with
  | notFound => exact .nil
  | ambiguous rejects => contradiction
  | @found c cs _ =>
      have hignored : (cs.map Search.ignoredEvent).filter (·.kind.level = .warn) =
          cs.map Search.ignoredEvent := by
        rw [List.filter_eq_self]
        intro e he
        obtain ⟨d, _, rfl⟩ := List.mem_map.mp he
        rfl
      have hfound : [Search.foundEvent c].filter (·.kind.level = .warn) = [] := rfl
      have hrows : (candidateRows (c :: cs)).tail = candidateRows cs := rfl
      rw [if_pos rfl, List.filter_append, hignored, hfound, List.append_nil, hrows, candidateRows,
        List.map_map, List.forall₂_map_left_iff, List.forall₂_map_right_iff, List.forall₂_same]
      intro d hd
      have hmem : eventRow (Search.ignoredEvent d) ∈
          (cs.map Search.ignoredEvent ++ [Search.foundEvent c]).map eventRow :=
        List.mem_map_of_mem (List.mem_append_left _ (List.mem_map_of_mem hd))
      exact ⟨_, hmem, rfl, rfl, rfl⟩

theorem exitCode_eq_zero_iff {α β : Type} (r : Except α β) :
    (if r.isOk = true then 0 else 1) = 0 ↔ r.isOk = true := by
  split <;> simp_all

/-- What a search makes of the candidates is reported as their rows want it. -/
theorem agreesWith_of_outcome {policy : Policy} {m : Module} {cs : List Candidate}
    {r : Except Search.Failure Selection} {log : EventLog}
    (h : Search.Outcome policy m cs r log.toList) (path : String) :
    AgreesWith (candidateRows cs) policy (LocateReport.ofDiscovery path m r log).toValue.document
      (if r.isOk then 0 else 1) where
  either := by cases r <;> rfl
  code_eq_zero_iff := by
    rw [exitCode_eq_zero_iff]
    cases r <;> rfl
  selects := by
    intro hset
    cases r with
    | error f => contradiction
    | ok x =>
        obtain ⟨c, rest, hcs, hx⟩ := h.exists_cons_of_ok
        obtain ⟨e, hone, houtline⟩ := h.filter_handlerFound
        have htype : e.type = some x.type.token := congrArg Outline.type houtline
        have hmethod : e.method = some x.method.token := congrArg Outline.method houtline
        refine ⟨(HandlerEntry.ofSelection x).toValue.document,
          (CandidateEntry.ofCandidate c).toValue.document, log.toList.map eventRow, eventRow e,
          rfl, ?_, ?_, ?_, ?_, field?_events_report path m (.ok x) log, ?_, ?_, ?_⟩
        · rw [hcs]
          rfl
        · rw [hx]
          rfl
        · rw [hx]
          rfl
        · rw [hx]
          rfl
        · have hfilter := congrArg (List.map eventRow) hone
          rw [List.filter_map]
          simp only [Function.comp_def, hasText_kind_eventRow]
          exact hfilter
        · exact congrArg (fun token => some (Event.tokenValue token).document) htype
        · exact congrArg (fun token => some (Event.tokenValue token).document) hmethod
  warns := by
    intro hreport
    subst hreport
    exact ⟨_, _, field?_warnings_report path m r log, field?_events_report path m r log,
      warns_of_outcome h⟩
  rejects := by
    intro hrejects
    have hlength : (candidateRows cs).length = cs.length := List.length_map _
    rw [exitCode_eq_zero_iff, h.isOk_iff, hlength]
    refine ⟨fun hsingle => hsingle.2 hrejects, fun hsingle => ⟨?_, fun _ => hsingle⟩⟩
    exact List.ne_nil_of_length_pos (hsingle ▸ Nat.one_pos)
  finds := by
    intro haccepts
    have hrows : candidateRows cs ≠ [] ↔ cs ≠ [] := List.map_eq_nil_iff.not
    rw [exitCode_eq_zero_iff, h.isOk_iff, hrows]
    exact ⟨fun hfinds => hfinds.1, fun hfinds => ⟨hfinds, fun hrejects => absurd hrejects haccepts⟩⟩

/-! ## Commands -/

theorem ofName?_name (policy : Policy) : Policy.ofName? policy.name = some policy := by
  cases policy <;> decide

namespace Invocation

theorem run_eq_report {i : Invocation} {source : Source} {m : Module} {policy : Policy}
    (hpolicy : i.policy = .ok policy) (hload : Module.ofSource i.path source = .ok m) :
    i.run source = i.report m policy := by
  unfold run
  rw [hpolicy]
  simp only [hload]

theorem exists_locate_eq (i : Invocation) (search : Search) (m : Module) :
    ∃ diagnostics, i.locate search m =
      ⟨if (search.discover m {}).1.isOk then 0 else 1,
        i.render (LocateReport.ofDiscovery i.path m (search.discover m {}).1
            (search.discover m {}).2.log).toValue
          (LocateReport.ofDiscovery i.path m (search.discover m {}).1
            (search.discover m {}).2.log).lines,
        diagnostics⟩ := by
  unfold locate
  cases hdiscover : search.discover m {} with
  | mk r journal =>
      cases r with
      | ok x => exact ⟨_, rfl⟩
      | error f => exact ⟨_, rfl⟩

/-- The exit code does not depend on how the report is asked for. -/
theorem code_run_json (i : Invocation) (json : Bool) (source : Source) :
    ({ i with json := json }.run source).code = (i.run source).code := by
  obtain ⟨json', verbose, path, job⟩ := i
  -- a run fails in the policy, in the file or in the search, and none of them reads `json`
  have hpolicy : policy ⟨json, verbose, path, job⟩ = policy ⟨json', verbose, path, job⟩ := by
    cases job <;> rfl
  have hreport : ∀ m p, (report ⟨json, verbose, path, job⟩ m p).code =
      (report ⟨json', verbose, path, job⟩ m p).code := by
    intro m p
    cases job <;> rfl
  unfold run
  rw [hpolicy]
  cases policy ⟨json', verbose, path, job⟩ with
  | error c => rfl
  | ok p =>
      simp only
      cases Module.ofSource path source with
      | error f => rfl
      | ok m => exact hreport m p

end Invocation

theorem document_rows {α : Type} (name : String) (entries : List α) (toValue : α → Value) :
    (Value.object [(name, .list (entries.map toValue)), ("count", .natural entries.length)]).document =
      rowsDocument name (entries.map fun e => (toValue e).document) := by
  rw [rowsDocument, List.length_map, ← Value.document_list_map]
  rfl

theorem document_candidatesReport (m : Module) :
    (CandidatesReport.ofModule m).toValue.document =
      rowsDocument "candidates" (candidateRows (Search.candidates {} m)) := by
  have hrows : (CandidatesReport.ofModule m).entries.map (fun e => e.toValue.document) =
      candidateRows (Search.candidates {} m) := List.map_map
  rw [← hrows]
  exact document_rows "candidates" _ CandidateEntry.toValue

theorem document_typesReport (m : Module) (space : Option String) :
    (TypesReport.ofModule m space).toValue.document =
      rowsDocument "types" (typeRows (m.types.filter (TypesReport.listed space))) := by
  have hrows : (TypesReport.ofModule m space).entries.map (fun e => e.toValue.document) =
      typeRows (m.types.filter (TypesReport.listed space)) := List.map_map
  rw [← hrows]
  exact document_rows "types" _ TypeEntry.toValue

section Loaded

variable {path : String} {source : Source} {m : Module}

theorem run_candidates (h : Module.ofSource path source = .ok m) (verbose : Bool) :
    ∃ output, Invocation.run ⟨true, verbose, path, .candidates⟩ source = ⟨0, output, ""⟩ ∧
      (rowsDocument "candidates" (candidateRows (Search.candidates {} m))).HeldBy output := by
  have hrun := Invocation.run_eq_report (i := ⟨true, verbose, path, .candidates⟩) rfl h
  refine ⟨_, hrun, ?_⟩
  rw [← document_candidatesReport]
  exact Value.heldBy_pretty _

theorem run_types (h : Module.ofSource path source = .ok m) (verbose : Bool)
    (space : Option String) :
    ∃ output, Invocation.run ⟨true, verbose, path, .types space⟩ source = ⟨0, output, ""⟩ ∧
      (rowsDocument "types" (typeRows (m.types.filter (TypesReport.listed space)))).HeldBy
        output := by
  have hrun := Invocation.run_eq_report (i := ⟨true, verbose, path, .types space⟩) rfl h
  refine ⟨_, hrun, ?_⟩
  rw [← document_typesReport]
  exact Value.heldBy_pretty _

/-- What is reported of a search agrees with the rows of all candidates, although the search may have
looked for the first one only. -/
theorem run_locate (h : Module.ofSource path source = .ok m) (verbose parallel : Bool)
    (policy : Policy) :
    ∃ report code output diagnostics,
      Invocation.run ⟨true, verbose, path, .locate parallel policy.name⟩ source =
        ⟨code, output, diagnostics⟩ ∧
      report.HeldBy output ∧
      AgreesWith (candidateRows (Search.candidates {} m)) policy report code := by
  have hpolicy : Invocation.policy ⟨true, verbose, path, .locate parallel policy.name⟩ =
      .ok policy := by
    simp only [Invocation.policy, ofName?_name]
  have hrun := Invocation.run_eq_report hpolicy h
  obtain ⟨diagnostics, hlocate⟩ := Invocation.exists_locate_eq
    ⟨true, verbose, path, .locate parallel policy.name⟩
    { policy := policy, parallel := parallel } m
  have houtcome := Search.outcome_of_empty { policy := policy, parallel := parallel } m
  have hcandidates : Search.candidates { policy := policy, parallel := parallel } m =
      Search.candidates {} m := by
    apply Search.candidates_congr
    rfl
  rw [hcandidates] at houtcome
  exact ⟨_, _, _, diagnostics, hrun.trans hlocate, Value.heldBy_pretty _,
    agreesWith_of_outcome houtcome path⟩

end Loaded

/-- What the commands write about a file that holds a module, given the rows of all candidates and of
all types. -/
structure CommandsAgree (path : String) (source : Source) (m : Module)
    (candidates types : List Document) : Prop where
  runCandidates : ∀ verbose, ∃ output,
    Invocation.run ⟨true, verbose, path, .candidates⟩ source = ⟨0, output, ""⟩ ∧
    (rowsDocument "candidates" candidates).HeldBy output
  runTypes : ∀ verbose, ∃ output,
    Invocation.run ⟨true, verbose, path, .types none⟩ source = ⟨0, output, ""⟩ ∧
    (rowsDocument "types" types).HeldBy output
  tokens : types.map (Document.field? "token") =
    m.types.map fun t => some (.text (some t.token.text))
  rows : List.Forall₂ SameHandler candidates (types.zipIdx.filter fun p => p.1.isSet "handler")
  runSpace : ∀ verbose space, ∃ listed output,
    Invocation.run ⟨true, verbose, path, .types (some space)⟩ source = ⟨0, output, ""⟩ ∧
    (rowsDocument "types" listed).HeldBy output ∧
    listed.Sublist types ∧
    listed = ((m.types.zip types).filter fun p => p.1.space = space).map Prod.snd
  runLocate : ∀ verbose parallel policy, ∃ report code output diagnostics,
    Invocation.run ⟨true, verbose, path, .locate parallel (Policy.name policy)⟩ source =
      ⟨code, output, diagnostics⟩ ∧
    report.HeldBy output ∧
    AgreesWith candidates policy report code

/-- The commands agree on every file that holds a module. In what they write for a program to read,
the rows of the candidates are, in order, the rows of those types that are listed with a handler, each
with the position, the tokens and the signature that are listed; the types of a namespace are its rows
among all rows; and under every policy, whether the types are looked at side by side or not, the
handler is that of the first candidate. No exit code depends on how the report is asked for. -/
theorem commands_agree {path : String} {source : Source} {m : Module}
    (h : Module.ofSource path source = .ok m) :
    (∃ candidates types, CommandsAgree path source m candidates types) ∧
    ∀ (i : Invocation) (json : Bool) (found : Source),
      ({ i with json := json }.run found).code = (i.run found).code := by
  have hall : m.types.filter (TypesReport.listed none) = m.types :=
    List.filter_eq_self.mpr fun _ _ => rfl
  have hrows : List.Forall₂ SameHandler (candidateRows (Search.candidates {} m))
      ((typeRows m.types).zipIdx.filter fun p => p.1.isSet "handler") := by
    rw [Search.candidates_eq_scanFrom]
    exact sameHandler_rows {} rfl m.types 0
  refine ⟨⟨candidateRows (Search.candidates {} m), typeRows m.types, ?_⟩,
    fun i json found => i.code_run_json json found⟩
  constructor
  case runCandidates => exact run_candidates h
  case runTypes =>
    intro verbose
    have hrun := run_types h verbose none
    rwa [hall] at hrun
  case tokens => exact List.map_map
  case rows => exact hrows
  case runSpace =>
    intro verbose space
    obtain ⟨output, hrun, hheld⟩ := run_types h verbose (some space)
    exact ⟨_, output, hrun, hheld, typeRows_filter_sublist m.types _, typeRows_filter m.types _⟩
  case runLocate => exact run_locate h

/-- A file that holds the nested pair: two candidates, at the positions of two types. -/
theorem commands_agree_nestedPair :
    ∃ m contents, Module.ofSource "vm.json" (.file contents) = .ok m ∧
      (Search.candidates {} m).length = 2 ∧
      (∃ candidates types, CommandsAgree "vm.json" (.file contents) m candidates types) ∧
      ∀ (i : Invocation) (json : Bool) (found : Source),
        ({ i with json := json }.run found).code = (i.run found).code := by
  obtain ⟨m, hm, htypes⟩ := Module.exists_build_of_tokens "vm" Search.nestedPair
    ⟨by decide, by decide⟩ ⟨by decide, by decide⟩
  have hforest : m.topLevel = Search.nestedPair := (Module.build_eq_ok_iff.mp hm).2
  have hnesting : nesting m.toJson ≤ 127 := by
    rw [Module.nesting_toJson_le_iff, hforest]
    exact ⟨rfl, fun t ht => nomatch ht⟩
  have hload : Module.ofOctets (octets m.toJson) = .ok m := by
    have hjson := m.ofJson_toJson
    rwa [if_pos hnesting] at hjson
  have hsource := Module.ofSource_file "vm.json" hload
  refine ⟨m, octets m.toJson, hsource, ?_, commands_agree hsource⟩
  rw [Search.candidates_eq_scanFrom, htypes]
  decide

end Command

end VmHandler
