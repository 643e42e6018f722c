/-
The dependencies that macOS provides.

`Provided.registered` are the formulae that may call themselves provided by
macOS; `Provided.tolerated` are further names that a formula may take from the
system, because macOS has them or something close to them.
-/

namespace TapLint.Provided

/-- The formulae that are `keg_only :provided_by_macos`. -/
def registered : List String := [
  "apr", "bc", "bc-gh", "berkeley-db", "bison", "bzip2", "cups", "curl", "cyrus-sasl",
  "dyld-headers", "ed", "expat", "file-formula", "flex", "gperf", "icu4c", "krb5",
  "libarchive", "libedit", "libffi", "libiconv", "libpcap", "libressl", "libxcrypt",
  "libxml2", "libxslt", "llvm", "lsof", "m4", "ncompress", "ncurses", "net-snmp", "netcat",
  "openldap", "pax", "pcsc-lite", "pod2man", "ruby", "sqlite", "ssh-copy-id", "swift",
  "tcl-tk", "unifdef", "unzip", "whois", "zip", "zlib"]

/-- Names that may be taken from the system without being registered. -/
def tolerated : List String := [
  "bash", "cpio", "expect", "git", "groff", "gzip", "jq", "less", "mandoc", "openssl", "perl",
  "php", "python", "rsync", "vim", "xz", "zsh"]

/-- Whether a formula is registered as provided by macOS. -/
def isRegistered (name : String) : Bool := registered.contains name

/-- Whether a name is tolerated. -/
def isTolerated (name : String) : Bool := tolerated.contains name

/-- Whether a name may be taken from the system. -/
def byMacos (name : String) : Bool := isTolerated name || isRegistered name

end TapLint.Provided
