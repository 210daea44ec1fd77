import Colloquy.Disk
import Colloquy.Settings.Format

/-!
A file of settings is named with its extension, or without; then the first extension under which
there is a file is taken.
-/

namespace Colloquy.Settings

inductive Refusal where
  | missing (file : String)
  | unknownFormat (file : String)
  | unreadable (file : String)
  /-- The setting of a name is given as something that it cannot be. -/
  | unsuitable (name : String)
deriving DecidableEq

def Refusal.message : Refusal → String
  | missing file => s!"configuration file \"{file}\" not found"
  | unknownFormat file => s!"configuration file \"{file}\" is not of a registered file format"
  | unreadable file => s!"configuration file \"{file}\" cannot be read"
  | unsuitable name => s!"invalid value for setting \"{name}\""

structure File where
  name : String
  format : Format
  data : List UInt8

namespace File

def extensionOf (name : String) : String :=
  let last := ((Path.ofString name).steps.getLast?).getD ""
  String.ofList (last.toList.drop ((Path.stem last).length + 1))

/-- What an extension is put to: a name without the slashes and single dots at its end. A name that
then ends in two dots, or is empty, takes no extension. -/
def stemOf? (name : String) : Option String :=
  let parts := ((name.toList.splitOn '/').map String.ofList).reverse
  match parts.dropWhile fun part => !Path.isStep part with
  | [] => none
  | last :: before =>
    if last = ".." then none else some ("/".intercalate (last :: before).reverse)

/-- The names with extensions that a name may stand for, with the formats that these tell. -/
def extended (name : String) : List (String × Format) :=
  match stemOf? name with
  | none => []
  | some stem => Format.extensions.map fun entry => (stem ++ "." ++ entry.1, entry.2)

def candidates (name : String) : List String := name :: (extended name).map Prod.fst

def data? (d : Disk) (name : String) : Option (List UInt8) :=
  ((d.read (Path.ofString name)).toOption).map Disk.Content.data

def find (d : Disk) (name : String) : Except Refusal File :=
  match d.lookup (Path.ofString name), Format.ofExtension? (extensionOf name) with
  | .ok (.file content), some format => .ok ⟨name, format, content.data⟩
  | .ok .directory, some _ => .error (.unreadable name)
  | .ok _, none => .error (.unknownFormat name)
  -- there is nothing under the name itself, whatever its extension
  | .error _, _ =>
    let found := (extended name).findSome? fun (full, format) =>
      (data? d full).map fun data => File.mk full format data
    match found with
    | some file => .ok file
    | none => .error (.missing name)

/-- The characters of a file: broken ones are replaced, and a mark of the byte order is dropped. -/
def characters (f : File) : List Char :=
  match Utf8.decodeLossy f.data with
  | '\uFEFF' :: rest => rest
  | cs => cs

def read (f : File) : Except Refusal Layer :=
  match f.format.read f.characters with
  | some layer => .ok layer
  | none => .error (.unreadable f.name)

end File

end Colloquy.Settings
