namespace CatalogCrawl

inductive Severity
  | debug | info | severe
  deriving DecidableEq, Repr

structure Entry where
  severity : Severity
  message : String
  cause : Option String
  deriving DecidableEq, Repr

inductive NoticeLevel
  | debug | info | warn | error
  deriving DecidableEq, Repr

structure Notice where
  level : NoticeLevel
  message : String
  cause : Option String
  deriving DecidableEq, Repr

namespace Entry

def debug (message : String) : Entry := ⟨.debug, message, none⟩

def info (message : String) : Entry := ⟨.info, message, none⟩

def severe (message : String) : Entry := ⟨.severe, message, none⟩

def severeDueTo (message cause : String) : Entry := ⟨.severe, message, some cause⟩

def notice (e : Entry) : Notice :=
  let level := match e.severity with
    | .debug => NoticeLevel.debug
    | .info => .info
    | .severe => .error
  ⟨level, e.message, e.cause⟩

end Entry

namespace Notice

def warn (message : String) : Notice := ⟨.warn, message, none⟩

def isAlarm (n : Notice) : Bool :=
  match n.level with
  | .warn | .error => true
  | _ => false

end Notice

inductive MonitorKind
  | memory | log
  deriving DecidableEq, Repr

structure Journal where
  kind : MonitorKind
  entries : List Entry
  notices : List Notice
  deriving DecidableEq, Repr

namespace Journal

def empty (kind : MonitorKind) : Journal := ⟨kind, [], []⟩

def notify (j : Journal) (n : Notice) : Journal := { j with notices := n :: j.notices }

def report (j : Journal) (e : Entry) : Journal :=
  match j.kind with
  | .memory => { j with entries := e :: j.entries }
  | .log => j.notify e.notice

@[simp] theorem kind_report (j : Journal) (e : Entry) : (j.report e).kind = j.kind := by
  unfold report
  split <;> rfl

@[simp] theorem kind_foldl_report (j : Journal) (entries : List Entry) :
    (entries.foldl report j).kind = j.kind := by
  induction entries generalizing j with
  | nil => rfl
  | cons e rest ih => rw [List.foldl_cons, ih, kind_report]

def warn (j : Journal) (message : String) : Journal := j.notify (.warn message)

def severe (j : Journal) : List Entry :=
  j.entries.reverse.filter (·.severity = .severe)

def since (j : Journal) (count : Nat) : List Entry := j.entries.take (j.entries.length - count)

def alarms (j : Journal) : List Notice :=
  j.notices.reverse.filter Notice.isAlarm

end Journal

end CatalogCrawl
