import BleBridge.Program.Arguments

/-! # What the program tells about itself -/

namespace BleBridge.Program

def version : String := "0.0.1"

/-- The options with their meanings. -/
def options : List (String × String) :=
  [("-c, --config <CONFIG>",
      "Path to the configuration file [default: " ++ ({} : Arguments).config ++ "]"),
    ("-l, --log-level <LOG_LEVEL>",
      "Log level (trace, debug, info, warn, error); defaults to \x60logging.level\x60"),
    ("-d, --debug", "Enable debug mode"),
    ("    --no-color", "Disable colored output"),
    ("    --validate",
      "Validation mode - only validate configuration without starting service"),
    ("-h, --help", "Print help"),
    ("-V, --version", "Print version")]

def optionWidth : Nat := options.foldl (fun n o => max n o.1.length) 0

def optionLine (o : String × String) : String :=
  "  " ++ o.1 ++ String.ofList (List.replicate (optionWidth + 2 - o.1.length) ' ') ++ o.2

def help : String :=
  String.join ((["BLE Serial Bridge Service", "", "Usage: blesrv [OPTIONS]", "", "Options:"] ++
    options.map optionLine).map (· ++ "\n"))

end BleBridge.Program
