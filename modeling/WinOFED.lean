import WinOFED.Complib.ClMapDelta
import WinOFED.Complib.VectorLife
import WinOFED.Complib.PoolAccounts
import WinOFED.Complib.FMapNext
import WinOFED.Complib.PoolLayout
import WinOFED.Complib.ReqMgr
import WinOFED.Complib.ClList
import WinOFED.Mad.RmppRoundTrip
import WinOFED.Mad.RmppWindow
import WinOFED.Mad.RetryTime
import WinOFED.Mad.TidRouting
import WinOFED.Al.HandleTable
import WinOFED.Al.FmrRuns
import WinOFED.Al.McastRuns
import WinOFED.Al.LocalMad
import WinOFED.Srp.CmdBytes
import WinOFED.Srp.Conserve
import WinOFED.Srp.Sense
import WinOFED.Cm.Req
import WinOFED.Cm.Rep
import WinOFED.Cm.Lap
import WinOFED.Cep.ConnMaps
import WinOFED.Cep.CidTable
import WinOFED.Cep.Outstanding
import WinOFED.Cep.Ownership
import WinOFED.Cep.Timewait
import WinOFED.Mlx4.BitmapRuns
import WinOFED.Mlx4.Buddy
import WinOFED.Winverbs.RemoveLock
import WinOFED.Winmad.Register
import WinOFED.Dapl.Cookie
