import CStack.Basic
import CStack.Ring
import CStack.Scan
import CStack.Addr2line
import CStack.Platform.Unwind
import CStack.Platform.Glibc
import CStack.Platform.Windows
import CStack.Platform
import CStack.Query
import CStack.Concurrent.Cas
import CStack.Concurrent.Plain
import CStack.Concurrent.Saves
import CStack.Thread
import CStack.History
import CStack.Safety
import CStack.Faults
import CStack.Crash
import CStack.StackSize
