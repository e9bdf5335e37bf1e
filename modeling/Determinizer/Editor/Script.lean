import Determinizer.Editor.Basic

/-! Scripts of editor steps. A step that fails leaves the editor as far as it came, and the script
goes on. -/

namespace Determinizer.Editor

inductive Step where
  | setStates (text : String)
  | setAlphabet (text : String)
  | setInitialState (text : String)
  | setAcceptingStates (text : String)
  | setTransition (state symbol text : String)
  | getTransition (state symbol : String)
  | canConvert
  | checkLabels (config : Config.Draft)
  | convert
  | toConfig
  | exportText
  | loadDraft (config : Config.Draft)
  | loadText (text : String)
  | loadBytes (bytes : List UInt8)

inductive Reply where
  | nothing
  | labels (l : List String)
  | flag (b : Bool)
  | table (t : Table)
  | config (c : Config)
  | text (s : String)

def step [Host] (e : Editor) : Step → Except EditorError Reply × Editor
  | .setStates text => (.ok .nothing, e.setStates text)
  | .setAlphabet text => (.ok .nothing, e.setAlphabet text)
  | .setInitialState text => (.ok .nothing, e.setInitialState text)
  | .setAcceptingStates text => (.ok .nothing, e.setAcceptingStates text)
  | .setTransition state symbol text => (.ok .nothing, e.setTransition state symbol text)
  | .getTransition state symbol => (.ok (.labels (e.getTransition state symbol)), e)
  | .canConvert => (.ok (.flag e.canConvert), e)
  | .checkLabels config => ((e.checkLabels config).map fun _ => .nothing, e)
  | .convert =>
    match e.convert with
    | .ok e' => (.ok (.table e'.table), e')
    | .error fault => (.error (.labels fault), e)
  | .toConfig => (.ok (.config e.toConfig), e)
  | .exportText => (.ok (.text e.exportText), e)
  | .loadDraft config =>
    match (loadDraft config).run.run e with
    | (.ok _, e') => (.ok .nothing, e')
    | (.error field, e') => (.error (.missing field), e')
  | .loadText text => told ((loadText text).run.run e)
  | .loadBytes bytes => told ((loadBytes bytes).run.run e)
where
  told : Except EditorError Config × Editor → Except EditorError Reply × Editor
    | (loaded, e') => (loaded.map .config, e')

def run [Host] (e : Editor) : List Step → List (Except EditorError Reply × Editor)
  | [] => []
  | s :: steps => e.step s :: (e.step s).2.run steps

end Determinizer.Editor
