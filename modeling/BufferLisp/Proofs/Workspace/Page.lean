import BufferLisp.Proofs.Eval.Simulation
import BufferLisp.Proofs.Workspace.WellFormed

/-!
# The active buffer as a page

A program that stays in one buffer cannot tell a workspace from a page with the same text, cursor and
name.  Every request but those to switch to a buffer and to kill one gets the same reply from both
and leaves the page as the active buffer is (`Workspace.showing`).  So what is found out about a
program on a recorder holds of it in an editor (`eval_workspace_eq_page`).

The workspace has more to it than the page, and the record tells what becomes of the rest: the other
buffers stay as they are, and the echo area holds the last message.
-/

set_option autoImplicit false

namespace BufferLisp

/-- The text, the cursor and the name of a buffer. -/
def Buffer.toPage (buffer : Buffer) : Page :=
  ⟨buffer.content, buffer.cursor, buffer.name⟩

/-- A request that concerns the current buffer or the echo area only. -/
def Request.StaysInBuffer : Request → Prop
  | .switchBuffer _ => False
  | .killBuffer _ => False
  | _ => True

namespace Workspace

/-! ## The active buffer -/

/-- The active buffer has the text, the cursor and the name of a page. -/
def Shows (page : Page) (workspace : Workspace) : Prop :=
  workspace.activeBuffer?.map Buffer.toPage = some page

theorem find?_modifyNamed {change : Buffer → Buffer} (proper : Buffer.Proper change)
    (name : String) (buffers : List Buffer) :
    (modifyNamed name change buffers).find? (·.name == name) =
      (buffers.find? (·.name == name)).map change := by
  induction buffers with
  | nil => rfl
  | cons buffer rest ih =>
      rw [modifyNamed]
      split
      · next same => simp [(proper buffer).1, same]
      · next other => simp [other, ih]

/-- A change of the active buffer is seen in the active buffer. -/
theorem activeBuffer?_modifyActive (workspace : Workspace) {change : Buffer → Buffer}
    (proper : Buffer.Proper change) :
    (workspace.modifyActive change).activeBuffer? = workspace.activeBuffer?.map change :=
  find?_modifyNamed proper workspace.active workspace.buffers

/-- A page follows a change of the buffer that it shows. -/
theorem Shows.modifyActive {workspace : Workspace} {page : Page} (shows : Shows page workspace)
    {change : Buffer → Buffer} (proper : Buffer.Proper change) (turn : Page → Page)
    (turns : ∀ buffer, (change buffer).toPage = turn buffer.toPage) :
    Shows (turn page) (workspace.modifyActive change) := by
  obtain ⟨buffer, found, rfl⟩ := Option.map_eq_some_iff.mp shows
  rw [Shows, activeBuffer?_modifyActive workspace proper, found, Option.map_some, Option.map_some,
    turns]

theorem Shows.keeps {request : Request} (stays : request.StaysInBuffer) {page : Page}
    {workspace : Workspace} (shows : Shows page workspace) :
    Shows (Host.handle request page).2 (Host.handle request workspace).2 := by
  cases request with
  | message text => exact shows
  | insert text =>
      exact shows.modifyActive (Buffer.insert_proper text)
        (fun page => (Page.handle (.insert text) page).2) fun _ => rfl
  | content => exact shows
  | cursor => exact shows
  | setCursor offset =>
      exact shows.modifyActive (Buffer.moveTo_proper offset)
        (fun page => (Page.handle (.setCursor offset) page).2) fun _ => rfl
  | switchBuffer name => exact stays.elim
  | bufferName => exact shows
  | killBuffer name => exact stays.elim

theorem Shows.reply {request : Request} (stays : request.StaysInBuffer) {page : Page}
    {workspace : Workspace} (shows : Shows page workspace) :
    (Host.handle request page).1 = (Host.handle request workspace).1 := by
  obtain ⟨buffer, found, rfl⟩ := Option.map_eq_some_iff.mp shows
  change (Page.handle request buffer.toPage).1 = (Workspace.handle request workspace).1
  cases request with
  | content => simp [handle, Page.handle, found, Buffer.toPage]
  | cursor => simp [handle, Page.handle, found, Buffer.toPage]
  | bufferName => simp [handle, Page.handle, found, Buffer.toPage]
  | switchBuffer name => exact stays.elim
  | killBuffer name => exact stays.elim
  | _ => rfl

/-- **A page answers as the workspace does whose active buffer it shows**, as long as the program
stays in that buffer. -/
def showing : Host.Simulation Page Workspace Request.StaysInBuffer where
  rel := Shows
  reply stays shows := shows.reply stays
  keeps stays shows := shows.keeps stays

/-! ## The rest of the workspace -/

/-- The same buffers in the same places, but for the contents of the active one. -/
structure SameElsewhere (before after : Workspace) : Prop where
  active : after.active = before.active
  names : after.names = before.names
  others : ∀ i, before.indexOf? before.active ≠ some i → after.buffers[i]? = before.buffers[i]?

theorem indexOf?_of_names {before after : Workspace} (names : after.names = before.names)
    (name : String) : after.indexOf? name = before.indexOf? name := by
  have along : ∀ workspace : Workspace,
      workspace.indexOf? name = workspace.names.findIdx? (· == name) := by
    intro workspace
    rw [Workspace.names, List.findIdx?_map]
    rfl
  rw [along, along, names]

/-- The buffers at other places than the first one of the name are kept. -/
theorem getElem?_modifyNamed (change : Buffer → Buffer) {name : String} {buffers : List Buffer}
    {i : Nat} (other : buffers.findIdx? (·.name == name) ≠ some i) :
    (modifyNamed name change buffers)[i]? = buffers[i]? := by
  induction buffers generalizing i with
  | nil => rfl
  | cons buffer rest ih =>
      rw [List.findIdx?_cons] at other
      rw [modifyNamed]
      split
      · next same =>
        rw [if_pos same] at other
        cases i with
        | zero => exact absurd rfl other
        | succ i => rfl
      · next different =>
        rw [if_neg different] at other
        cases i with
        | zero => rfl
        | succ i =>
            rw [List.getElem?_cons_succ, List.getElem?_cons_succ]
            exact ih fun found => other (by rw [found]; rfl)

namespace SameElsewhere

theorem refl (workspace : Workspace) : SameElsewhere workspace workspace :=
  ⟨rfl, rfl, fun _ _ => rfl⟩

theorem trans {first second third : Workspace} (earlier : SameElsewhere first second)
    (later : SameElsewhere second third) : SameElsewhere first third where
  active := later.active.trans earlier.active
  names := later.names.trans earlier.names
  others i other := by
    have place : second.indexOf? second.active = first.indexOf? first.active := by
      rw [indexOf?_of_names earlier.names, earlier.active]
    rw [later.others i (place ▸ other), earlier.others i other]

theorem modifyActive (workspace : Workspace) {change : Buffer → Buffer}
    (proper : Buffer.Proper change) : SameElsewhere workspace (workspace.modifyActive change) :=
  ⟨rfl, names_modifyNamed proper workspace.active workspace.buffers, fun _ other =>
    getElem?_modifyNamed change other⟩

theorem handle {request : Request} (stays : request.StaysInBuffer) (workspace : Workspace) :
    SameElsewhere workspace (Host.handle request workspace).2 := by
  cases request with
  | insert text => exact .modifyActive workspace (Buffer.insert_proper text)
  | setCursor offset => exact .modifyActive workspace (Buffer.moveTo_proper offset)
  | switchBuffer name => exact stays.elim
  | killBuffer name => exact stays.elim
  | message text => exact ⟨rfl, rfl, fun _ _ => rfl⟩
  | _ => exact .refl workspace

theorem handleAll {requests : List Request} (stay : ∀ request ∈ requests, request.StaysInBuffer)
    (workspace : Workspace) : SameElsewhere workspace (Host.handleAll workspace requests) := by
  induction requests generalizing workspace with
  | nil => exact .refl workspace
  | cons request rest ih =>
      have first := handle (stay request (by simp)) workspace
      exact first.trans (ih (fun later member => stay later (by simp [member])) _)

end SameElsewhere

end Workspace

/-! ## Messages -/

/-- The text of a request to show one. -/
def Request.message? : Request → Option String
  | .message text => some text
  | _ => none

/-- The last message among requests. -/
def lastMessage? (requests : List Request) : Option String :=
  (requests.filterMap Request.message?).getLast?

namespace Workspace

/-- A request that is no message leaves the echo area alone. -/
theorem echo_handle (request : Request) (workspace : Workspace) :
    (Host.handle request workspace).2.echo = request.message?.getD workspace.echo := by
  cases request with
  | switchBuffer name =>
      change (workspace.activate name).echo = workspace.echo
      unfold activate
      dsimp only
      split <;> rfl
  | killBuffer name =>
      change (workspace.remove name).echo = workspace.echo
      unfold remove
      split
      · rfl
      · split <;> rfl
  | _ => rfl

/-- The echo area shows the last message. -/
theorem echo_handleAll (requests : List Request) (workspace : Workspace) :
    (Host.handleAll workspace requests).echo = (lastMessage? requests).getD workspace.echo := by
  induction requests generalizing workspace with
  | nil => rfl
  | cons request rest ih =>
      have first := echo_handle request workspace
      rw [Host.handleAll, List.foldl_cons, ← Host.handleAll, ih, first, lastMessage?, lastMessage?]
      cases said : request.message? with
      | none => rw [List.filterMap_cons_none said, Option.getD_none]
      | some text =>
          rw [List.filterMap_cons_some said, List.getLast?_cons, Option.getD_some]
          rfl

end Workspace

/-! ## Programs that stay in a buffer -/

/-- **A program that stays in one buffer does in a workspace what it does on a page.**  Say that a
recorder holds the text, the cursor and the name of the active buffer of a workspace, and that an
evaluation on it sends no request to switch to a buffer and none to kill one.  On the workspace the
evaluation has the same result and leaves the same bindings; afterwards the active buffer is again as
the page, the other buffers are untouched, and the echo area shows the last message, if there was
one. -/
theorem eval_workspace_eq_page (limit : Nat) (e : Value) (scope : Chain) {workspace : Workspace}
    {buffer : Buffer} (active : workspace.activeBuffer? = some buffer) (log : List Request)
    {sent : List Request}
    (record : ((eval limit e).runOn ⟨scope, (⟨buffer.toPage, log⟩ : Recorder)⟩).2.host.requests =
      log ++ sent)
    (stays : ∀ name, .switchBuffer name ∉ sent ∧ .killBuffer name ∉ sent) :
    let recorded := (eval limit e).runOn ⟨scope, (⟨buffer.toPage, log⟩ : Recorder)⟩
    let ran := (eval limit e).runOn ⟨scope, workspace⟩
    ran.1 = recorded.1 ∧ ran.2.scope = recorded.2.scope ∧
      (∃ after, ran.2.host.activeBuffer? = some after ∧ after.toPage = recorded.2.host.host) ∧
      workspace.SameElsewhere ran.2.host ∧
      ran.2.host.echo = (lastMessage? sent).getD workspace.echo := by
  intro recorded ran
  have stay : ∀ request ∈ sent, request.StaysInBuffer := by
    intro request member
    cases request with
    | switchBuffer name => exact (stays name).1 member
    | killBuffer name => exact (stays name).2 member
    | _ => trivial
  have shows : Workspace.Shows buffer.toPage workspace := by
    rw [Workspace.Shows, active, Option.map_some]
  obtain ⟨runs, shown⟩ := eval_tracked Workspace.showing limit e scope shows log record stay
  have runs : ran = (recorded.1, ⟨recorded.2.scope, Host.handleAll workspace sent⟩) := runs
  rw [runs]
  exact ⟨rfl, rfl, Option.map_eq_some_iff.mp shown, .handleAll stay workspace,
    Workspace.echo_handleAll sent workspace⟩

/-- A program inserts the name of the buffer it is in, shows it and fails: the second of two buffers of
one name is not touched. -/
theorem eval_workspace_eq_page_failed :
    let name : Value := .list [.sym "buffer-name"]
    let e : Value := .list [.sym "progn", .list [.sym "setq", .sym "x", name],
      .list [.sym "insert", .sym "x"], .list [.sym "message", .sym "x"], .list [.sym "car"]]
    let workspace : Workspace :=
      ⟨[⟨"b", "", 0, "Text", false, false⟩, ⟨"a", "xy", 1, "Text", false, false⟩,
        ⟨"a", "z", 9, "Text", false, true⟩], "a", "old"⟩
    let ran := (eval 9 e).runOn ⟨Chain.global, workspace⟩
    ran.1 = .error (.error (.tooFewArguments .car 1 0)) ∧
      ran.2.scope.lookup? "x" = some (.str "a") ∧
      (∃ after, ran.2.host.activeBuffer? = some after ∧ after.toPage = ⟨"xay", 2, "a"⟩) ∧
      ran.2.host.buffers[2]? = some ⟨"a", "z", 9, "Text", false, true⟩ ∧ ran.2.host.echo = "a" := by
  intro name e workspace ran
  have record : ((eval 9 e).runOn ⟨Chain.global, (⟨⟨"xy", 1, "a"⟩, []⟩ : Recorder)⟩).2.host.requests =
      [] ++ [.bufferName, .insert "a", .message "a"] := by decide +kernel
  have here : workspace.activeBuffer? = some ⟨"a", "xy", 1, "Text", false, false⟩ := rfl
  obtain ⟨result, scope, ⟨after, active, page⟩, elsewhere, echo⟩ :=
    eval_workspace_eq_page 9 e Chain.global here [] record fun _ => ⟨by simp, by simp⟩
  refine ⟨result, ?_, ⟨after, active, page.trans ?_⟩, elsewhere.others 2 (by decide), echo⟩
  · rw [scope]
    rfl
  · rfl

end BufferLisp
