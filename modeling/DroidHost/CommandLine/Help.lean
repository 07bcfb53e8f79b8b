import DroidHost.CommandLine.Request

namespace DroidHost

def helpText : String :=
  "🤖 Android USB Link - ADB over TCP/IP without an adb server\n" ++
  "\n" ++
  "USAGE:\n" ++
  "    android-usb-link [FLAGS] <COMMAND>\n" ++
  "\n" ++
  "FLAGS:\n" ++
  "    --connect=HOST:PORT Device to talk to (default: " ++ defaultAddress ++ ")\n" ++
  "    --timeout=N         Per-operation timeout in seconds\n" ++
  "    --json              Print results as JSON\n" ++
  "    --debug             Log protocol traffic\n" ++
  "    --help, -h          Show this help message\n" ++
  "    --version, -v       Show version information\n" ++
  "\n" ++
  "COMMANDS:\n" ++
  "    info                    Show device identity and properties\n" ++
  "    shell <cmd...>          Run a shell command\n" ++
  "    ls <path>               List a directory\n" ++
  "    stat <path>             Show file metadata\n" ++
  "    push <local> <remote>   Copy a file to the device\n" ++
  "    pull <remote> <local>   Copy a file from the device\n" ++
  "    reboot [target]         Reboot (optionally into bootloader/recovery)\n" ++
  "\n" ++
  "EXAMPLES:\n" ++
  "    android-usb-link --connect=192.168.1.20:5555 info\n" ++
  "    android-usb-link shell getprop ro.product.model\n" ++
  "    android-usb-link --json ls /sdcard\n"

def versionText : String := "Android USB Link v0.1.12\n"

end DroidHost
