import BindingSuite.FileTree

/-! # Tools

The command-line tools that an external compiler can be.

* `Tool` is a tool as a function of the text of its one file;
* `Toolbox` finds a tool by the path of its executable, or says by an `Obstacle` why there is none
  to start;
* `Host` is a file tree in which some files are tools, and `Host.toolbox` its toolbox;
* `Host.usual` is a usual host, with three standard tools. -/

namespace BindingSuite

/-- What a finished tool leaves behind. -/
structure ToolReport where
  /-- The exit code. -/
  exitCode : Nat
  /-- The text on its standard output. -/
  output : String := ""
  /-- The text on its error output. -/
  errors : String := ""
  deriving DecidableEq

/-- A command-line tool that is given a file. -/
abbrev Tool := String → ToolReport

/-- The tools that can be started, by the paths of their executables. -/
abbrev Toolbox := String → Except Obstacle Tool

/-- A file tree in which some files are tools. -/
abbrev Host := FileTree (Option Tool)

namespace Host

/-- The directory of the tools. -/
def toolDirectory : Place := ["usr", "bin"]

/-- Where an executable is looked for: a name without slashes among the tools, any other path where
it leads. -/
def toolPath (executable : String) : String :=
  if executable.toList.contains '/' then executable
  else "/" ++ "/".intercalate (toolDirectory ++ [executable])

/-- The tools of a host. A directory cannot be started, nor can a file that is no tool. -/
def toolbox (host : Host) : Toolbox := fun executable => do
  match ← host.find (toolPath executable) with
  | .file (some tool) => return tool
  | _ => throw .denied

/-! ## A usual host -/

/-- The tools of a usual host: one that succeeds, one that fails, and one that copies its
file. -/
def usualTools : List (String × Tool) :=
  [("true", fun _ => { exitCode := 0 }), ("false", fun _ => { exitCode := 1 }),
    ("cat", fun file => { exitCode := 0, output := file })]

/-- The directories of a usual host in which others can be made. -/
def usualDirectories : List Place :=
  [["boot"], ["dev"], ["dev", "shm"], ["etc"], ["home"], ["media"], ["mnt"], ["opt"], ["root"],
    ["run"], ["srv"], ["tmp"], ["usr"], ["usr", "bin"], ["usr", "include"], ["usr", "lib"],
    ["usr", "local"], ["usr", "local", "bin"], ["usr", "local", "lib"], ["usr", "sbin"],
    ["usr", "share"], ["usr", "src"], ["var"], ["var", "cache"], ["var", "lib"], ["var", "log"],
    ["var", "tmp"], ["work"], ["work", "suite"]]

/-- The directories of a usual host in which nothing can be made. -/
def usualClosedDirectories : List (Place × Obstacle) :=
  [(["proc"], .missing), (["proc", "self"], .missing), (["dev", "fd"], .missing),
    (["sys"], .notPermitted), (["dev", "pts"], .notPermitted)]

/-- The links of a usual host. -/
def usualLinks : List (Place × Place) :=
  [(["bin"], ["usr", "bin"]), (["lib"], ["usr", "lib"]), (["sbin"], ["usr", "sbin"]),
    (["var", "run"], ["run"])]

/-- Files of a usual host that are no tools: the devices that every host has, and the best known
texts. -/
def usualFiles : List Place :=
  [["dev", "null"], ["dev", "zero"], ["dev", "full"], ["dev", "random"], ["dev", "urandom"],
    ["dev", "tty"], ["dev", "stdin"], ["dev", "stdout"], ["dev", "stderr"], ["etc", "group"],
    ["etc", "hostname"], ["etc", "hosts"], ["etc", "passwd"], ["etc", "resolv.conf"],
    ["etc", "shadow"], ["proc", "cpuinfo"], ["proc", "meminfo"], ["proc", "version"]]

/-- A usual host. Relative paths start in a directory that is empty. -/
def usual : Host where
  here := ["work", "suite"]
  entries :=
    usualDirectories.map (fun place => (place, .directory))
      ++ usualClosedDirectories.map (fun (place, obstacle) => (place, .closed obstacle))
      ++ usualLinks.map (fun (place, target) => (place, .link target))
      ++ usualFiles.map (fun place => (place, .file none))
      ++ usualTools.map (fun (name, tool) => (toolDirectory ++ [name], .file (some tool)))

end Host

end BindingSuite
