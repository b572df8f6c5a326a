import MCGate.State.AppState

/-!
# Reloading from disk

`reload_all` re-reads both files, `apply_messages_change` has the new messages already and
re-reads the config against them. Both publish the messages before the config is loaded,
and neither takes them back when that load fails.
-/
namespace MCGate

open Config Yaml

/-- The files a reload reads; `none` is a file that is not there. -/
structure Disk (F : Type) where
  configPath : Text
  messagesPath : Text
  configFile : Option F
  messagesFile : Option F

namespace AppState

variable {F : Type} (env : Externals) (format : Format F)

def setMessages (app : AppState) (newMessages : GateMessages) : AppState :=
  { app with messages := newMessages }

/-- `apply_messages_change` -/
def applyMessagesChange (disk : Disk F) (newMessages : GateMessages)
    (app : AppState) : AppState × Except LoadError Unit :=
  let app := app.setMessages newMessages
  match loadConfig env format disk.configPath disk.configFile newMessages with
  | .ok newConfig => (app.setConfig newConfig, .ok ())
  | .error e => (app, .error e)

/-- `reload_all`; an error is what it logs as "keeping previous config/messages". -/
def reloadAll (disk : Disk F) (app : AppState) :
    AppState × Except LoadError Unit :=
  match loadMessages format disk.messagesPath disk.messagesFile with
  | .ok newMessages => applyMessagesChange env format disk newMessages app
  | .error e => (app, .error e)

/-- `config()` and `messages()` are what they were. -/
def Keeps (before after : AppState) : Prop :=
  after.config = before.config ∧ after.messages = before.messages

private theorem applyMessagesChange_keeps_iff (disk : Disk F) (newMessages : GateMessages)
    (app : AppState) :
    (failed (applyMessagesChange env format disk newMessages app).2 →
        Keeps app (applyMessagesChange env format disk newMessages app).1) ↔
      (failed (loadConfig env format disk.configPath disk.configFile newMessages) →
        newMessages = app.messages) := by
  unfold applyMessagesChange
  cases loaded : loadConfig env format disk.configPath disk.configFile newMessages with
  | ok newConfig => simp [failed]
  | error e => cases e <;> simp [failed, Keeps, setMessages]

/-- A failed reload keeps config and messages exactly when the config loads against the new
messages, or they are the messages in force already, or they do not load themselves. -/
theorem failed_reload_keeps_iff (disk : Disk F) (newMessages : GateMessages) (app : AppState) :
    ((failed (reloadAll env format disk app).2 → Keeps app (reloadAll env format disk app).1) ↔
      ∀ messages, loadMessages format disk.messagesPath disk.messagesFile = .ok messages →
        failed (loadConfig env format disk.configPath disk.configFile messages) →
        messages = app.messages) ∧
    ((failed (applyMessagesChange env format disk newMessages app).2 →
        Keeps app (applyMessagesChange env format disk newMessages app).1) ↔
      (failed (loadConfig env format disk.configPath disk.configFile newMessages) →
        newMessages = app.messages)) := by
  refine ⟨?_, applyMessagesChange_keeps_iff env format disk newMessages app⟩
  unfold reloadAll
  cases messagesLoaded : loadMessages format disk.messagesPath disk.messagesFile with
  | error e => simp [Keeps]
  | ok messages =>
    rw [applyMessagesChange_keeps_iff]
    simp

/-- A reader that knows one document. -/
def byeFormat : Format Text where
  fromStr text :=
    if text = "kickMessage: bye".toList then
      .ok (.mapping [(.string "kickMessage".toList, .string "bye".toList)])
    else .error "unexpected document".toList
  toString _ := .error "not serialised".toList

/-- The config file is gone, the new messages load: the reload fails and they stay. -/
theorem failed_reload_replaces_messages :
    ¬ ∀ (env : Externals) (format : Format Text) (disk : Disk Text) (app : AppState),
      failed (reloadAll env format disk app).2 → Keeps app (reloadAll env format disk app).1 := by
  intro keeps
  have kept := keeps asciiExternals byeFormat
    ⟨"config.yml".toList, "messages.yml".toList, none, some "kickMessage: bye".toList⟩
    (AppState.new {} {}) (by decide)
  have same := congrArg GateMessages.kickMessage kept.2
  exact absurd same (by decide)

end AppState

end MCGate
