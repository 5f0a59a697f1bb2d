/-! What lies around the working folder. -/
namespace PassPipeline

/-- The names on the way from a folder. -/
abbrev Path := List String

/-- What becomes of text that is written to a device. -/
inductive Device where
  /-- It is gone. -/
  | void
  | stdout
  | stderr
  deriving DecidableEq, Repr

namespace Machine

/-- The folders that every machine has, by their paths from the root. -/
def folders : List Path := [
  [], ["bin"], ["dev"], ["dev", "pts"], ["dev", "shm"], ["etc"], ["home"], ["lib"],
  ["opt"], ["proc"], ["root"], ["run"], ["sbin"], ["sys"], ["tmp"], ["usr"], ["usr", "bin"],
  ["usr", "lib"], ["var"], ["var", "tmp"]]

/-- The devices that text can be written to. -/
def devices : List (Path × Device) := [
  (["dev", "null"], .void),
  (["dev", "full"], .void),
  (["dev", "zero"], .void),
  (["dev", "random"], .void),
  (["dev", "urandom"], .void),
  (["dev", "stdin"], .void),
  (["dev", "stdout"], .stdout),
  (["dev", "stderr"], .stderr)]

def isFolder (p : Path) : Bool := folders.contains p

def device? (p : Path) : Option Device := (devices.find? (·.1 = p)).map Prod.snd

/-- The folder that holds the working folder. -/
def home : Path := ["tmp"]

end Machine

end PassPipeline
