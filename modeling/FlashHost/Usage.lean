/-!
# Usage texts

The texts that explain the command line to the user.
-/

set_option autoImplicit false

namespace FlashHost.Usage

def programName : String := "fastboot"

def version : String := "0.1.0"

private def entry (form explanation : String) : String :=
  let gap := String.ofList (List.replicate (41 - form.length) ' ')
  "  " ++ form ++ gap ++ explanation ++ "\n"

def text : String :=
  "usage: fastboot [ <option> ] <command>\n" ++
  "\n" ++
  "commands:\n" ++
  entry "flashall <filename>" "reflash device from a zip package" ++
  entry "flash <partition> <filename>" "write a file to a flash partition" ++
  entry "erase <partition>" "erase a flash partition" ++
  entry "getvar <variable>" "display a bootloader variable" ++
  entry "signature <filename>" "send a 256 byte image signature" ++
  entry "oem <word>..." "send a vendor specific command" ++
  entry "devices" "list all connected devices" ++
  entry "continue" "continue with autoboot" ++
  entry "reboot" "reboot device normally" ++
  entry "reboot-bootloader" "reboot device into bootloader" ++
  entry "help" "show this help message" ++
  "\n" ++
  "options:\n" ++
  entry "-s <serial number>" "specify device serial number" ++
  entry "-i <vendor id>" "specify a custom USB vendor id"

def versionText : String :=
  programName ++ " " ++ version ++ "\n"

def helpText : String :=
  "Flash and control Android devices in bootloader mode\n" ++
  "\n" ++
  "Usage: fastboot [OPTIONS] [COMMAND]...\n" ++
  "\n" ++
  "Arguments:\n" ++
  "  [COMMAND]...  Options and commands, processed left to right\n" ++
  "\n" ++
  "Options:\n" ++
  "  -v, --verbose...  Verbosity level (-v, -vv)\n" ++
  "  -h, --help        Print help\n" ++
  "  -V, --version     Print version\n" ++
  "\n" ++ text

end FlashHost.Usage
