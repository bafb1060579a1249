import SchemaCompiler.Shell.Edit.Run
import SchemaCompiler.Shell.Utility.Calculate
import SchemaCompiler.Shell.Utility.Columns
import SchemaCompiler.Shell.Utility.Compare
import SchemaCompiler.Shell.Utility.Files
import SchemaCompiler.Shell.Utility.Launch
import SchemaCompiler.Shell.Utility.Order

/-!
# Commands that are programs of their own

Every other name is not found.
-/

namespace SchemaCompiler.Shell

/-- Prints its words. Escapes count only if that is asked for. -/
def Utility.echo (words : List String) : Exec Unit := do
  let options := words.takeWhile fun w =>
    w.startsWith "-" && w.length > 1 && (w.toList.drop 1).all fun c => "neE".contains c
  let letters := options.flatMap fun w => w.toList.drop 1
  let text := " ".intercalate (words.drop options.length)
  let escapes := (letters.filter fun c => c = 'e' || c = 'E').getLast? = some 'e'
  let (text, ended) := if escapes then unescape text else (text, false)
  Exec.writeOut (if ended || letters.contains 'n' then text else text ++ "\n")

/-- The program of a name. -/
def utility? : String → Option (List String → Exec Unit)
  | "basename" => some Utility.baseNameCommand
  | "cat" => some Utility.concatenate
  | "chmod" => some Utility.changeMode
  | "cmp" => some Utility.compare
  | "comm" => some Utility.commonLines
  | "cp" => some Utility.copy
  | "cut" => some Utility.cut
  | "diff" => some Utility.difference
  | "dirname" => some Utility.directoryNameCommand
  | "echo" => some Utility.echo
  | "expr" => some Utility.calculate
  | "fold" => some Utility.foldFiles
  | "grep" => some Utility.search
  | "head" => some Utility.head
  | "ls" => some Utility.list
  | "mkdir" => some Utility.makeDirectory
  | "mv" => some Utility.move
  | "nl" => some Utility.numberFiles
  | "paste" => some Utility.paste
  | "rev" => some Utility.reverseChars
  | "rm" => some Utility.remove
  | "rmdir" => some Utility.removeDirectory
  | "sed" => some Utility.editFiles
  | "seq" => some Utility.countUp
  | "sleep" => some fun _ => pure ()
  | "sort" => some Utility.sort
  | "tac" => some Utility.reverseLines
  | "tail" => some Utility.tail
  | "tee" => some Utility.tee
  | "touch" => some Utility.touch
  | "tr" => some Utility.replaceChars
  | "truncate" => some Utility.truncate
  | "uniq" => some Utility.unique
  | "wc" => some Utility.count
  | _ => none

end SchemaCompiler.Shell
